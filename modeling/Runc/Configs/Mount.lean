import Runc.Lib.Flags
import Runc.Lib.Text

/-!
# Mounts of a configuration

The flags of `mount(2)` and `statfs(2)` and the part of `configs.Mount` that the
runtime sets from the options of a mount.
-/

namespace Runc.Configs

open Lib

def msRdonly : Flags := Flags.bit 0
def msNosuid : Flags := Flags.bit 1
def msNodev : Flags := Flags.bit 2
def msNoexec : Flags := Flags.bit 3
def msSynchronous : Flags := Flags.bit 4
def msRemount : Flags := Flags.bit 5
def msMandlock : Flags := Flags.bit 6
def msDirsync : Flags := Flags.bit 7
def msNosymfollow : Flags := Flags.bit 8
def msNoatime : Flags := Flags.bit 10
def msNodiratime : Flags := Flags.bit 11
def msBind : Flags := Flags.bit 12
def msMove : Flags := Flags.bit 13
def msRec : Flags := Flags.bit 14
def msSilent : Flags := Flags.bit 15
def msUnbindable : Flags := Flags.bit 17
def msPrivate : Flags := Flags.bit 18
def msSlave : Flags := Flags.bit 19
def msShared : Flags := Flags.bit 20
def msRelatime : Flags := Flags.bit 21
def msIVersion : Flags := Flags.bit 23
def msStrictatime : Flags := Flags.bit 24
def msLazytime : Flags := Flags.bit 25

def mntDetach : Flags := Flags.bit 1

def stRdonly : Flags := Flags.bit 0
def stNosuid : Flags := Flags.bit 1
def stNodev : Flags := Flags.bit 2
def stNoexec : Flags := Flags.bit 3
def stSynchronous : Flags := Flags.bit 4
def stValid : Flags := Flags.bit 5
def stMandlock : Flags := Flags.bit 6
def stNoatime : Flags := Flags.bit 10
def stNodiratime : Flags := Flags.bit 11
def stRelatime : Flags := Flags.bit 12
def stNosymfollow : Flags := Flags.bit 13

def mountAttrRdonly : Flags := 0x1
def mountAttrNosuid : Flags := 0x2
def mountAttrNodev : Flags := 0x4
def mountAttrNoexec : Flags := 0x8
def mountAttrAtime : Flags := 0x70
def mountAttrRelatime : Flags := 0x0
def mountAttrNoatime : Flags := 0x10
def mountAttrStrictatime : Flags := 0x20
def mountAttrNodiratime : Flags := 0x80
def mountAttrIdmap : Flags := 0x100000
def mountAttrNosymfollow : Flags := 0x200000

structure MountAttr where
  attrSet : Flags
  attrClr : Flags
deriving DecidableEq

structure MountIDMapping where
  recursive : Bool
deriving DecidableEq

structure Mount where
  source : Text := []
  destination : Text := []
  device : Text := []
  flags : Flags := 0
  clearedFlags : Flags := 0
  propagationFlags : List Flags := []
  data : Text := []
  recAttr : Option MountAttr := none
  extensions : Flags := 0
  idMapping : Option MountIDMapping := none
deriving DecidableEq

def Mount.isBind (m : Mount) : Bool :=
  m.flags &&& msBind ≠ 0

end Runc.Configs
