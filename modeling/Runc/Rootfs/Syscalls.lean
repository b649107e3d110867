import Runc.Lib.Flags
import Runc.Lib.Program
import Runc.Lib.Text

/-!
# System calls of the setup of a rootfs

The calls are recorded with the errors they returned; the kernel is a parameter that
answers each call in view of those made before.
-/

namespace Runc.Rootfs

open Lib

inductive Errno
  | enoent
  | einval
  | eperm
  | other (n : Nat)
deriving DecidableEq

inductive Call
  | mount (source target fstype : Text) (flags : Flags) (data : Text)
  | unmount (target : Text) (flags : Flags)
  | chroot (path : Text)
  | chdir (path : Text)
deriving DecidableEq

abbrev Log := List (Call × Option Errno)

abbrev Kernel := Log → Call → Option Errno

def call {ε : Type} (kernel : Kernel) (c : Call) : Program Log ε (Option Errno) := do
  let log ← get
  modify (· ++ [(c, kernel log c)])
  pure (kernel log c)

theorem exec_call {ε : Type} (kernel : Kernel) (c : Call) (log : Log) :
    (call kernel c : Program Log ε (Option Errno)).exec log =
      (.ok (kernel log c), log ++ [(c, kernel log c)]) :=
  rfl

end Runc.Rootfs
