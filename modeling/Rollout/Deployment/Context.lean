import Rollout.Deployment.Request
import Rollout.RemotePath

/-!
# The state of a run

What a run carries from step to step, and what is fixed for all its steps.

It is the execution context of section 3 of the specification.
-/

namespace Rollout.Deployment

open Rollout.Session (Environment Setting)

/-- What is fixed for a run. -/
structure Setup where
  protectedPaths : ProtectedPaths := {}
  /-- The directory for local paths and commands, in place of the one the program was started in. -/
  localDirectory : Option String := none
  /-- How deep a transfer follows directories in directories. -/
  depth : Nat := 4096

/-- What a run carries from step to step. -/
structure Context where
  /-- The open session, if there is one. -/
  session : Option SessionId := none
  localDirectory : String := ""
  remoteDirectory : String := ""
  /-- Exported to every remote command. -/
  environment : Environment := []
  /-- Put into later steps. -/
  bindings : Variables := .empty
  /-- The number of the step under way, counted from 1. -/
  step : Nat := 0
  deriving DecidableEq, Repr

namespace Context

def remotePath (context : Context) (path : String) : String :=
  RemotePath.resolve context.remoteDirectory path

def setting (context : Context) : Setting :=
  { directory := some context.remoteDirectory, environment := context.environment }

end Context

/-- The context a step leaves, and why the step failed if it did. -/
structure Outcome where
  context : Context
  failure : Option ActionError := none
  deriving DecidableEq, Repr

end Rollout.Deployment
