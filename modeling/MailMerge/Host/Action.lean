import MailMerge.Error
import MailMerge.Host.Operation

/-!
# Actions

An **action** is a tree of operations: at each node an operation is performed, and its
reply picks the branch. The tree says all that the program does; who performs the
operations is left open.

* `Action.bind` puts one action behind another;
* `Action.interpret` performs an action, given how operations are performed;
* `Procedure` is an action that may fail.
-/

namespace MailMerge

/-- An **action** that ends with a value. -/
inductive Action (α : Type) where
  | done (value : α)
  | perform (operation : Operation) (next : operation.Reply → Action α)

namespace Action

variable {α β : Type}

/-- The action that goes on after another. -/
def bind : Action α → (α → Action β) → Action β
  | .done a, f => f a
  | .perform operation next, f => .perform operation fun reply => (next reply).bind f

instance : Monad Action where
  pure := .done
  bind := bind

/-- A single operation. -/
def of (operation : Operation) : Action operation.Reply := .perform operation .done

/-- Performs an action, given how operations are performed. -/
def interpret {m : Type → Type} [Monad m] (handler : (operation : Operation) → m operation.Reply) :
    Action α → m α
  | .done a => pure a
  | .perform operation next => do
    let reply ← handler operation
    (next reply).interpret handler

/-! ### Operations -/

/-- The content of a file. -/
def readFile (path : Text) : Action (Except StorageFault Bytes) := of (.readFile path)

/-- Writes a file. -/
def writeFile (path : Text) (content : Bytes) : Action (Except StorageFault Unit) :=
  of (.writeFile path content)

/-- Makes a directory and all that lead to it. -/
def createDirectories (path : Text) : Action (Except StorageFault Unit) :=
  of (.createDirectories path)

/-- Moves a file. -/
def rename (old new : Text) : Action (Except StorageFault Unit) := of (.rename old new)

/-- Removes a file. -/
def removeFile (path : Text) : Action (Except StorageFault Unit) := of (.removeFile path)

/-- Whether anything stands at a path. -/
def hasEntry (path : Text) : Action Bool := of (.hasEntry path)

/-- The value of an environment variable. -/
def environment (name : Text) : Action (Option Text) := of (.environment name)

/-- The home directory. -/
def homeDirectory : Action (Option Text) := of .homeDirectory

/-- The time. -/
def currentTime : Action Instant := of .currentTime

/-- An exchange with an endpoint. -/
def exchange (request : HttpRequest) : Action (Except Text HttpReply) := of (.exchange request)

end Action

/-- A **procedure** is an action that may fail. -/
abbrev Procedure (α : Type) := ExceptT MergeError Action α

namespace Procedure

variable {α : Type}

/-- An action that does not fail. -/
def ofAction (action : Action α) : Procedure α := ExceptT.lift action

/-- A result. -/
def ofResult (result : Except MergeError α) : Procedure α := ExceptT.mk (pure result)

end Procedure

end MailMerge
