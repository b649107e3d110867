import Runc.Lib.Directory
import Runc.Lib.Text
import Runc.Lib.Transition

/-!
# Saving and loading the state of a container

`saveState` writes the state to a new file and renames it to `state.json`. Any number of
saves and loads run at the same time; each operation may fail, and a save may be cut off
between any two of them.

**Input.**  What `json.Marshal` gives for the state of each save, and how `loadState`
decodes a text.

**Ghosts.**  Who made a file (`creator`), and the saves whose rename took effect, in
order, with their texts (`renamed`).
-/

namespace Runc.Libcontainer
namespace SaveState

open Lib

abbrev Data := List UInt8

def stateFilename : Text :=
  "state.json".toList

def tempName (random : Text) : Text :=
  "state-".toList ++ random

theorem tempName_ne (random : Text) : tempName random ≠ stateFilename := by
  intro h
  have hbegins : "state-".toList <+: stateFilename := ⟨random, h⟩
  exact absurd hbegins (by decide)

inductive Answer
  | ok
  /-- `CreateTemp` has made a file with this random part. -/
  | made (random : Text)
  | moved (count : Nat)
  | fails (err : Text)
  deriving DecidableEq

inductive Save
  | ready
  | created (tmp : Text) (file : Nat)
  | writing (tmp : Text) (file : Nat) (left : Data)
  | written (tmp : Text) (file : Nat)
  | closed (tmp : Text) (file : Nat)
  | failing (tmp : Text) (file : Nat) (err : Text)
  | removing (tmp : Text) (file : Nat) (err : Text)
  | saved
  | failed (err : Text) (clean : Bool)
  | crashed
  deriving DecidableEq

def Save.file : Save → Option (Text × Nat)
  | .created tmp file | .writing tmp file _ | .written tmp file | .closed tmp file
  | .failing tmp file _ | .removing tmp file _ => some (tmp, file)
  | .ready | .saved | .failed _ _ | .crashed => none

abbrev StateDir := Directory Text UInt8

/-- `saveState`, the next operation, for a state that `json.Marshal` turns into
`marshaled`. -/
def saveState (marshaled : Except Text Data) (d : StateDir) :
    Save → Answer → Option (Save × StateDir)
  | .ready, .made random =>
      -- the file is opened with O_EXCL
      if d.entry (tempName random) = none then
        some (.created (tempName random) d.next, d.create (tempName random))
      else none
  | .ready, .fails err => some (.failed err true, d)
  | .created tmp file, .ok =>
      match marshaled with
      | .ok data => some (.writing tmp file data, d)
      | .error err => some (.failing tmp file err, d)
  | .writing tmp file left, .moved count =>
      if 0 < count ∧ count ≤ left.length then
        some (.writing tmp file (left.drop count), d.append file (left.take count))
      else none
  | .writing tmp file left, .ok => if left = [] then some (.written tmp file, d) else none
  | .writing tmp file _, .fails err => some (.failing tmp file err, d)
  | .written tmp file, .ok => some (.closed tmp file, d)
  | .written tmp file, .fails err => some (.failing tmp file err, d)
  | .closed tmp _, .ok =>
      if d.entry tmp = none then none else some (.saved, d.rename tmp stateFilename)
  | .closed tmp file, .fails err => some (.failing tmp file err, d)
  -- the result of the second close is not looked at
  | .failing tmp file err, .ok | .failing tmp file err, .fails _ =>
      some (.removing tmp file err, d)
  | .removing tmp _ err, .ok =>
      if d.entry tmp = none then none else some (.failed err true, d.unlink tmp)
  | .removing _ _ err, .fails _ => some (.failed err false, d)
  | _, _ => none

structure Decoder (σ : Type) where
  decode : Data → Except Text σ
  withResources : σ → σ

def Decoder.load {σ : Type} (decoder : Decoder σ) (data : Data) : Except Text σ :=
  match decoder.decode data with
  | .error err => .error err
  | .ok state => .ok (decoder.withResources state)

inductive Load (σ : Type)
  | ready
  | reading (file : Nat) (got : Data)
  | done (seen : Option Data) (result : Except Text σ)

def unread (d : StateDir) (file : Nat) (got : Data) : Data :=
  (d.content file).drop got.length

def loadState {σ : Type} (decoder : Decoder σ) (d : StateDir) :
    Load σ → Answer → Option (Load σ)
  | .ready, .ok =>
      match d.entry stateFilename with
      | some file => some (.reading file [])
      | none => some (.done none (.error "container does not exist".toList))
  | .ready, .fails err => some (.done none (.error err))
  | .reading file got, .moved count =>
      if 0 < count ∧ count ≤ (unread d file got).length then
        some (.reading file (got ++ (unread d file got).take count))
      else none
  | .reading file got, .ok =>
      -- the end of the file
      if unread d file got = [] then
        some (.done (some got) (decoder.load got))
      else none
  | .reading _ _, .fails err => some (.done none (.error err))
  | _, _ => none

structure World (ι κ σ : Type) where
  dir : StateDir
  saves : ι → Save
  loads : κ → Load σ
  creator : Nat → Option ι
  renamed : List (ι × Data)

section Machine

variable {ι κ σ : Type} [DecidableEq ι] [DecidableEq κ]

structure Calls (ι σ : Type) where
  marshaled : ι → Except Text Data
  decoder : Decoder σ

inductive Action (ι κ : Type)
  | save (i : ι) (answer : Answer)
  | crash (i : ι)
  | load (r : κ) (answer : Answer)

def markCreator (i : ι) (creator : Nat → Option ι) : Save → Nat → Option ι
  | .created _ file => Function.update creator file (some i)
  | _ => creator

def markRenamed (i : ι) (marshaled : Except Text Data) (renamed : List (ι × Data)) :
    Save → List (ι × Data)
  | .saved =>
      match marshaled with
      | .ok data => renamed ++ [(i, data)]
      | .error _ => renamed
  | _ => renamed

def World.act (calls : Calls ι σ) (w : World ι κ σ) (i : ι) (save : Save) (dir : StateDir) :
    World ι κ σ :=
  { w with
    dir := dir
    saves := Function.update w.saves i save
    creator := markCreator i w.creator save
    renamed := markRenamed i (calls.marshaled i) w.renamed save }

def World.crash (w : World ι κ σ) (i : ι) : World ι κ σ :=
  { w with saves := Function.update w.saves i .crashed }

def perform (calls : Calls ι σ) (w : World ι κ σ) : Action ι κ → Option (World ι κ σ)
  | .save i answer =>
      match saveState (calls.marshaled i) w.dir (w.saves i) answer with
      | none => none
      | some (save, dir) => some (w.act calls i save dir)
  | .crash i =>
      if (w.saves i).file = none then none
      else some (w.crash i)
  | .load r answer =>
      match loadState calls.decoder w.dir (w.loads r) answer with
      | none => none
      | some load => some { w with loads := Function.update w.loads r load }

def World.start (d : StateDir) : World ι κ σ where
  dir := d
  saves _ := .ready
  loads _ := .ready
  creator _ := none
  renamed := []

def machine (calls : Calls ι σ) (d : StateDir) : System (World ι κ σ) where
  init w := w = World.start d
  step w w' := ∃ action, perform calls w action = some w'

end Machine

end SaveState
end Runc.Libcontainer
