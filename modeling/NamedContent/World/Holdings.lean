import NamedContent.World.State

/-!
# What tasks hold and give back

Segmenters and consumer ends that tasks held are filed under their ids again
after the tasks have ended, in the order of the tasks' numbers and in place of
others that got the id meanwhile. A segmenter that is dropped gives its
namespace back; a consumer end that is dropped closes its channel.
-/

set_option autoImplicit false

namespace NamedContent.World

def applyHoldings (w : World) (holdings : List Segmenter.Holding) : World :=
  holdings.foldl (fun w h => match h with
    | .hold name => w.moved (.addNamespace name)
    | .release name => w.moved (.removeNamespace name)) w

def dropSegmenter (w : World) (s : Segmenter) : World := w.applyHoldings s.letGo.2

def fileSegmenter (w : World) (id : String) (s : Segmenter) : World :=
  let filed := { w with segmenters := w.segmenters.insert id s }
  match w.segmenters.find? id with
  | some old => filed.dropSegmenter old
  | none => filed

def closeChannel (w : World) (i : Nat) : World :=
  let (channel, woken) := (w.network.channel i).close
  (w.setChannel i channel).wakeAll woken

def fileFace (w : World) (id : String) (channel : Nat) : World :=
  let filed := { w with faces := w.faces.insert id channel }
  match w.faces.find? id with
  | some old => filed.closeChannel old
  | none => filed

def file (w : World) : Loan → World
  | .segmenter id s => w.fileSegmenter id s
  | .face id channel => w.fileFace id channel

def fileReturned (w : World) : World :=
  let inOrder := w.returned.mergeSort fun a b => a.1 ≤ b.1
  inOrder.foldl (fun w r => w.file r.2) { w with returned := [] }

def withdrawBlock (w : World) (i : Nat) (who : Caller) : World :=
  let (channel, woken) := (w.network.channel i).withdraw who
  ((w.setChannel i channel).wakeAll woken.toList).wakeReceiver i

def withdrawInterest (w : World) (who : Caller) : World :=
  let (interests, woken) := w.network.interests.withdraw who
  (w.setInterests interests).wakeAll woken.toList

def closeInterests (w : World) : World :=
  let (interests, woken) := w.network.interests.close
  (w.setInterests interests).wakeAll woken

end NamedContent.World
