import Runc.Lib.Text

/-!
# The seccomp configuration

`configs.Seccomp`, as far as the code that builds the filter reads it.  Pointers may be
nil; an integer that is none of the constants of its type is kept as it is.
-/

namespace Runc.Configs

open Lib

inductive Action
  | kill
  | errno
  | trap
  | allow
  | trace
  | log
  | notify
  | killThread
  | killProcess
  | other (value : Int)
deriving DecidableEq

inductive Operator
  | equalTo
  | notEqualTo
  | greaterThan
  | greaterThanOrEqualTo
  | lessThan
  | lessThanOrEqualTo
  | maskEqualTo
  | other (value : Int)
deriving DecidableEq

structure Arg where
  index : UInt64
  value : UInt64
  valueTwo : UInt64
  op : Operator
deriving DecidableEq

structure Syscall where
  name : Text
  action : Action
  errnoRet : Option UInt64
  args : List (Option Arg)
deriving DecidableEq

structure Seccomp where
  defaultAction : Action
  architectures : List Text
  flags : List Text
  syscalls : List (Option Syscall)
  defaultErrnoRet : Option UInt64
deriving DecidableEq

end Runc.Configs
