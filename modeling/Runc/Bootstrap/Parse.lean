import Runc.Bootstrap.Message

/-!
# Reading the bootstrap message

`nl_parse` and `__open_namespaces` of nsexec.  A read outside the payload is an
outcome of its own, and so is a loop that does not come to an end within the
given number of turns.
-/

namespace Runc.Bootstrap

open Lib

inductive ParseErr
  | shortRead
  | netlinkError
  | unexpectedType (type : Nat)
  | unknownAttr (type : Nat)
  | outOfBounds
  | outOfFuel
deriving DecidableEq

/-- `struct nlconfig_t`.  A string is given by the bytes from its pointer on, as
many as its length says. -/
structure NlConfig where
  cloneflags : Nat := 0
  oomScoreAdj : Option Bytes := none
  uidmap : Option Bytes := none
  gidmap : Option Bytes := none
  namespaces : Option Bytes := none
  isSetgroup : Nat := 0
  isRootlessEuid : Nat := 0
  uidmappath : Option Bytes := none
  gidmappath : Option Bytes := none
  timensoffset : Option Bytes := none
deriving DecidableEq

def attrCase (e : Endian) (type : Nat) : Option (Option Nat × (Bytes → NlConfig → NlConfig)) :=
  if type = cloneFlagsAttr then
    some (some 4, fun word c => { c with cloneflags := e.get word })
  else if type = rootlessEUIDAttr then
    some (some 1, fun byte c => { c with isRootlessEuid := e.get byte })
  else if type = oomScoreAdjAttr then
    some (none, fun bytes c => { c with oomScoreAdj := some bytes })
  else if type = nsPathsAttr then
    some (none, fun bytes c => { c with namespaces := some bytes })
  else if type = uidmapAttr then
    some (none, fun bytes c => { c with uidmap := some bytes })
  else if type = gidmapAttr then
    some (none, fun bytes c => { c with gidmap := some bytes })
  else if type = uidmapPathAttr then
    some (none, fun bytes c => { c with uidmappath := some bytes })
  else if type = gidmapPathAttr then
    some (none, fun bytes c => { c with gidmappath := some bytes })
  else if type = setgroupAttr then
    some (some 1, fun byte c => { c with isSetgroup := e.get byte })
  else if type = timeOffsetsAttr then
    some (none, fun bytes c => { c with timensoffset := some bytes })
  else none

def handleAttr (e : Endian) (data : Bytes) (pos type payloadLen : Nat)
    (config : NlConfig) : Except ParseErr NlConfig :=
  match attrCase e type with
  | none => .error (.unknownAttr type)
  | some (width, store) =>
      match slice data pos (width.getD payloadLen) with
      | none => .error .outOfBounds
      | some bytes => .ok (store bytes config)

/-- `size_t` arithmetic. -/
def sizeMod : Nat := 2 ^ 64

def nlLoop (e : Endian) (data : Bytes) :
    Nat → Nat → NlConfig → Except ParseErr (NlConfig × Nat)
  | 0, _, _ => .error .outOfFuel
  | fuel + 1, current, config =>
      if current < data.length then
        match slice data current 2, slice data (current + 2) 2 with
        | some len, some type =>
            -- a length below four wraps around
            let payloadLen := (e.get len + sizeMod - nlaHdrlen) % sizeMod
            match handleAttr e data (current + nlaHdrlen) (e.get type) payloadLen
              config with
            | .error err => .error err
            | .ok config =>
                nlLoop e data fuel
                  (current + nlaHdrlen + (payloadLen + 3) % sizeMod / 4 * 4) config
        | _, _ => .error .outOfBounds
      else .ok (config, current)

def nlParse (fuel : Nat) (e : Endian) (wire : Bytes) : Except ParseErr (NlConfig × Nat) :=
  match slice wire 0 16 with
  | none => .error .shortRead
  | some hdr =>
      let type := e.get ((hdr.drop 4).take 2)
      if type = 2 then .error .netlinkError
      else if type ≠ initMsg then .error (.unexpectedType type)
      else
        -- `NLMSG_PAYLOAD` is computed in 32 bits
        let size := (e.get (hdr.take 4) + 2 ^ 32 - 16) % 2 ^ 32
        match slice wire 16 size with
        | none => .error .shortRead
        | some data => nlLoop e data fuel 0 {}

inductive OpenErr
  | nsPathsEmpty
  | failedToParse (item : Bytes)
  | failedToOpen (path : Bytes)
  | unknownType (name : Bytes)
deriving DecidableEq

def cString (bytes : Bytes) : Bytes :=
  bytes.takeWhile (· ≠ 0)

def allNsTypes : List Bytes :=
  [ascii "cgroup", ascii "ipc", ascii "mnt", ascii "net", ascii "pid",
    ascii "time", ascii "user", ascii "uts"]

def openNamespace (opens : Bytes → Bool) (item : Bytes) : Except OpenErr (Bytes × Bytes) :=
  let type := item.takeWhile (· ≠ colon)
  if type.length = item.length then .error (.failedToParse item)
  else
    let path := item.drop (type.length + 1)
    if !opens path then .error (.failedToOpen path)
    else if type.take (pathMax - 1) ∉ allNsTypes then
      .error (.unknownType (type.take (pathMax - 1)))
    else .ok (type.take (pathMax - 1), path.take (pathMax - 1))

def openEach (opens : Bytes → Bool) : List Bytes → Except OpenErr (List (Bytes × Bytes))
  | [] => .ok []
  | item :: rest =>
      match openNamespace opens item with
      | .error e => .error e
      | .ok ns =>
          match openEach opens rest with
          | .error e => .error e
          | .ok list => .ok (ns :: list)

def openNamespaces (opens : Bytes → Bool) (nsspec : Bytes) :
    Except OpenErr (List (Bytes × Bytes)) :=
  match tokens comma (cString nsspec) with
  | [] => .error .nsPathsEmpty
  | items => openEach opens items

end Runc.Bootstrap
