import MailMerge.Host.Action
import MailMerge.Storage.FileSystem

/-!
# Worlds

A **world** is all that an action can find and change: files, environment, clock and
endpoints. Performing an action in a world is a function, so that statements about what
the program does are statements about that function.

* `World.perform` performs one operation;
* `Action.run` performs an action;
* `Action.run_bind` says that actions follow each other.
-/

namespace MailMerge

/-- A **world**. An endpoint may answer each request in the light of those before it;
what was asked and answered is remembered. -/
structure World where
  files : FileSystem
  environment : List (Text × Text)
  home : Option Text
  clock : Instant
  endpoint : List HttpRequest → HttpRequest → Except Text HttpReply
  exchanges : List (HttpRequest × Except Text HttpReply)

namespace World

/-- The world after an operation that may change the files. -/
def updateFiles (w : World) (result : Except StorageFault FileSystem) :
    Except StorageFault Unit × World :=
  match result with
  | .ok files => (.ok (), { w with files })
  | .error fault => (.error fault, w)

/-- Sends a request, if it is proper. -/
def send (w : World) (request : HttpRequest) : Except Text HttpReply × World :=
  if request.isProper then
    let reply := w.endpoint (w.exchanges.map (·.1)) request
    (reply, { w with exchanges := w.exchanges ++ [(request, reply)] })
  else (.error request.improperText, w)

/-- Performs an **operation**. -/
def perform (w : World) : (operation : Operation) → operation.Reply × World
  | .readFile path => (w.files.read path, w)
  | .writeFile path content => w.updateFiles (w.files.write path content)
  | .createDirectories path =>
    let (result, files) := w.files.createDirectories path
    (result, { w with files })
  | .rename old new => w.updateFiles (w.files.rename old new)
  | .removeFile path => w.updateFiles (w.files.remove path)
  | .hasEntry path => (w.files.hasEntry path, w)
  | .environment name => (w.environment.lookup name, w)
  | .homeDirectory => (w.home, w)
  | .currentTime => (w.clock, w)
  | .exchange request => w.send request

end World

namespace Action

variable {α β : Type}

/-- Performs an **action** in a world. -/
def run : Action α → World → α × World
  | .done a, w => (a, w)
  | .perform operation next, w => (next (w.perform operation).1).run (w.perform operation).2

@[simp] theorem run_pure (a : α) (w : World) : (pure a : Action α).run w = (a, w) := rfl

@[simp] theorem run_of (operation : Operation) (w : World) :
    (of operation).run w = w.perform operation := rfl

@[simp] theorem run_bind (x : Action α) (f : α → Action β) (w : World) :
    (x >>= f).run w = (f (x.run w).1).run (x.run w).2 := by
  change (bind x f).run w = _
  induction x generalizing w with
  | done a => rfl
  | perform operation next ih => exact ih _ _

end Action

end MailMerge
