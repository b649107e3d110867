import Runc.Lib.Path
import Runc.Lib.Transition
import Runc.Scanner.Profile

/-!
# Creating containers at the same time

`Create` looks whether the state directory exists, makes some checks of the cgroup and
then makes the directory. Any number of calls with the same root and id run at the same
time, and each operation may fail. Once a call has returned a container, its owner may
change what is below the state directory.

**Input.**  The root and the id, and what lies below the root at first, symbolic links
included.

**Ghost.**  The state directories that were made, and by whom (`made`).
-/

namespace Runc.Libcontainer
namespace Create

open Lib
open Lib.Path

inductive Node
  | dir
  | file
  | link (dest : Text)
  deriving DecidableEq

abbrev Tree := List Text → Option Node

/-- `t` with a node at a path. -/
def Tree.set (t : Tree) (p : List Text) (node : Option Node) : Tree :=
  Function.update t p node

def Tree.linkAt (t : Tree) (p : List Text) : Option Text :=
  match t p with
  | some (.link dest) => some dest
  | _ => none

structure Walk where
  current : List Text
  remaining : Text
  links : Nat

namespace Walk

def part (w : Walk) : Text :=
  w.remaining.takeWhile (· ≠ '/')

def rest (w : Walk) : Text :=
  (w.remaining.dropWhile (· ≠ '/')).tail

def nextPath (w : Walk) : List Text :=
  resolve w.current w.part

def enter (w : Walk) : Walk :=
  { w with current := w.nextPath, remaining := w.rest }

def follow (w : Walk) (dest : Text) : Walk where
  current := if isAbs dest then [] else w.current
  remaining := dest ++ '/' :: w.rest
  links := w.links + 1

end Walk

def maxSymlinkLimit : Nat :=
  255

def hasDotDot (path : Text) : Bool :=
  contains ('/' :: path ++ ['/']) "/../".toList

structure Args where
  root : Text
  id : Text

inductive Answer
  | ok
  | fails (err : Text)
  /-- `cm.Exists()`. -/
  | found (exist : Bool)
  /-- `cm.GetAllPids()`: how many, and an error with whether it is ENOENT or ENODEV. -/
  | pids (count : Nat) (err : Option (Text × Bool))
  /-- `cm.GetFreezerState()`: whether it is frozen. -/
  | freezer (frozen : Bool)

inductive Phase
  | begins
  | validating
  | makingRoot
  /-- In `SecureJoin`: about to look at a component, about to read a link. -/
  | walking (w : Walk)
  | linking (w : Walk)
  | statting (stateDir : List Text)
  | managing (stateDir : List Text)
  | checking (stateDir : List Text)
  | counting (stateDir : List Text)
  | freezing (stateDir : List Text)
  | making (stateDir : List Text)
  | created (stateDir : List Text)
  | failed (err : Text)

def checkArgs (args : Args) : Phase :=
  if args.root = [] then .failed "root not set".toList
  else if !Scanner.validateID args.id then .failed "invalid container ID format".toList
  else .validating

def beginJoin (args : Args) : Phase :=
  if hasDotDot args.root then
    .failed "root path provided to SecureJoin contains '..' components".toList
  else .walking ⟨[], args.id, 0⟩

def lookAt (t : Tree) (w : Walk) : Phase :=
  if w.remaining = [] then .statting w.current
  else if w.nextPath = [] then .walking w.enter
  else
    match t.linkAt w.nextPath with
    | none => .walking w.enter
    | some _ =>
        if w.links + 1 > maxSymlinkLimit then
          .failed "too many levels of symbolic links".toList
        else .linking w

def checkPids (stateDir : List Text) (count : Nat) : Option (Text × Bool) → Phase
  | some (err, false) => .failed ("unable to get cgroup PIDs: ".toList ++ err)
  | some (_, true) | none =>
      if count ≠ 0 then
        .failed ("container's cgroup is not empty: ".toList ++ (toString count).toList ++
          " process(es) found".toList)
      else .freezing stateDir

def canMkdir (t : Tree) (p : List Text) : Bool :=
  t p = none && t p.dropLast = some .dir

def create (args : Args) (t : Tree) : Phase → Answer → Option (Phase × Tree)
  | .begins, .ok => some (checkArgs args, t)
  | .validating, .ok => some (.makingRoot, t)
  | .validating, .fails err => some (.failed err, t)
  | .makingRoot, .ok =>
      match t [] with
      | none => some (beginJoin args, t.set [] (some .dir))
      | some .dir => some (beginJoin args, t)
      | some _ => none
  | .makingRoot, .fails err => some (.failed err, t)
  | .walking w, .ok => some (lookAt t w, t)
  | .walking _, .fails err => some (.failed err, t)
  | .linking w, .ok =>
      match t.linkAt w.nextPath with
      | some dest => some (.walking (w.follow dest), t)
      | none => none
  | .linking _, .fails err => some (.failed err, t)
  | .statting dir, .ok =>
      if t dir = none then some (.managing dir, t)
      else some (.failed "container with given ID already exists".toList, t)
  | .statting _, .fails err => some (.failed err, t)
  | .managing dir, .ok => some (.checking dir, t)
  | .managing _, .fails err => some (.failed err, t)
  | .checking dir, .found exist => some (if exist then .counting dir else .freezing dir, t)
  | .counting dir, .pids count err => some (checkPids dir count err, t)
  | .freezing dir, .freezer frozen =>
      some (if frozen then .failed "container's cgroup unexpectedly frozen".toList
        else .making dir, t)
  | .freezing _, .fails err =>
      some (.failed ("unable to get cgroup freezer state: ".toList ++ err), t)
  | .making dir, .ok =>
      if canMkdir t dir then some (.created dir, t.set dir (some .dir)) else none
  | .making _, .fails err => some (.failed err, t)
  | _, _ => none

structure World (ι : Type) where
  tree : Tree
  calls : ι → Phase
  made : List (ι × List Text)

inductive Action (ι : Type)
  | call (i : ι) (answer : Answer)
  | own (i : ι) (p : List Text) (node : Option Node)

section Machine

variable {ι : Type} [DecidableEq ι]

def markMade (i : ι) (made : List (ι × List Text)) : Phase → List (ι × List Text)
  | .created dir => made ++ [(i, dir)]
  | _ => made

def World.act (w : World ι) (i : ι) (phase : Phase) (t : Tree) : World ι where
  tree := t
  calls := Function.update w.calls i phase
  made := markMade i w.made phase

def MayChange (w : World ι) (i : ι) (p : List Text) (node : Option Node) : Prop :=
  ∃ dir, w.calls i = .created dir ∧ dir <+: p ∧ p ≠ dir ∧ w.tree.linkAt p = none ∧
    (w.tree.set p node).linkAt p = none

inductive Performs (args : Args) (w : World ι) : Action ι → World ι → Prop
  | call (i : ι) (answer : Answer) (phase : Phase) (t : Tree) :
      create args w.tree (w.calls i) answer = some (phase, t) →
      Performs args w (.call i answer) (w.act i phase t)
  | own (i : ι) (p : List Text) (node : Option Node) :
      MayChange w i p node →
      Performs args w (.own i p node) { w with tree := w.tree.set p node }

def machine (args : Args) (t : Tree) : System (World ι) where
  init w := w = ⟨t, fun _ => .begins, []⟩
  step w w' := ∃ action, Performs args w action w'

end Machine

end Create
end Runc.Libcontainer
