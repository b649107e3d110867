import Runc.Bootstrap.Message
import Runc.Lib.Text

/-!
# Namespaces of a configuration

`configs.Namespaces`, with paths as text.  The types of namespaces are those of the
bootstrap message.
-/

namespace Runc.Configs

open Lib
open Bootstrap (NamespaceType)

structure Namespace where
  type : NamespaceType
  path : Text := []
deriving DecidableEq

abbrev Namespaces := List Namespace

namespace Namespaces

def entry (n : Namespaces) (t : NamespaceType) : Option Namespace :=
  n.find? (·.type = t)

def contains (n : Namespaces) (t : NamespaceType) : Bool :=
  (n.entry t).isSome

def pathOf (n : Namespaces) (t : NamespaceType) : Text :=
  match n.entry t with
  | none => []
  | some ns => ns.path

def isPrivate (n : Namespaces) (t : NamespaceType) : Bool :=
  (n.entry t).any (·.path = [])

end Namespaces

end Runc.Configs
