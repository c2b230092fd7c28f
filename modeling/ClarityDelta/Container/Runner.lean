import ClarityDelta.Logging.Write

/-!
# Running containers

A program of an image runs in a container that sees the working directory under its own path. Its
exit code is left to the caller to judge; only a container that cannot be started or does not end in
time is a fault.
-/

namespace ClarityDelta.Container

open Logging Invocation Terminal

/-- How containers are run: by which program, in which directory, with which time limit in seconds,
and which logger is told. -/
structure Runner where
  program : String
  directory : String
  limit : Option Int
  logger : String
  deriving DecidableEq, Repr

/-- An image and its tag. -/
structure Image where
  name : String
  tag : String
  deriving DecidableEq, Repr

/-- An image as it is named on a command line. -/
def Image.text (image : Image) : String :=
  image.name ++ ":" ++ image.tag

/-- What a container came to. -/
structure Output where
  code : Int
  out : String
  err : String
  deriving DecidableEq, Repr

namespace Runner

/-- The command line that runs a container. -/
def command (runner : Runner) (image : Image) (arguments : List String) : List String :=
  [runner.program, "run", "--rm", "-v", runner.directory ++ ":" ++ runner.directory,
    "-w", runner.directory, image.text] ++ arguments

/-- The failure that an answer other than an exit is. -/
def failure (runner : Runner) (image : Image) (reason : Option String) : Fault :=
  let message := match reason with
    | none => s!"容器执行超时 ({limitText runner.limit}s): {image.text}"
    | some reason => s!"无法启动容器运行时 {runner.program}: {reason}"
  .checker ⟨message, none, ""⟩

/-- Runs a container. -/
def run (runner : Runner) (image : Image) (arguments : List String) : Work Output := do
  let command := runner.command image arguments
  let shown := Markup.escape (" ".intercalate command)
  say runner.logger (.debug s!"容器执行: {shown}")
  match ← Work.call ⟨command, runner.directory, runner.limit⟩ with
  | .finished code out err => return ⟨code, out, err⟩
  | .timedOut => throw (runner.failure image none)
  | .failed reason => throw (runner.failure image (some reason))

end Runner

end ClarityDelta.Container
