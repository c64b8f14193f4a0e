import Rollout.Json.Text
import Rollout.Script.Action

/-!
# Scripts as JSON

The form in which a checked script is listed for other programs. Fields stand in a fixed order, and a
login is written without its password.

Section 10.4 of the specification asks for this listing.
-/

namespace Rollout

namespace Script

def textArray (texts : List String) : Json :=
  .array (texts.map .string)

def Source.json : Source → Json
  | literal value => .object [("kind", .string "literal"), ("value", .string value)]
  | environment side name =>
    .object [("kind", .string "env"), ("key", .string name), ("local", .bool (side = .here))]
  | command side argv =>
    .object [("kind", .string "command"), ("argv", textArray argv), ("local", .bool (side = .here))]

def Action.params : Action → Json
  | connect login =>
    .object [("username", .string login.username), ("host", .string login.host),
      ("port", .number login.port.toNat)]
  | var key source => .object [("key", .string key), ("source", source.json)]
  | env key value => .object [("key", .string key), ("value", .string value)]
  | cd target => .object [("target", .string target)]
  | cmd program arguments =>
    .object [("command", .string program), ("args", textArray arguments)]
  | run command => .object [("command", .string command)]
  | move source destination | copy source destination =>
    .object [("source", .string source), ("destination", .string destination)]
  | delete targets => .object [("targets", textArray targets)]
  | upload sources destination | download sources destination =>
    .object [("sources", textArray sources), ("destination_dir", .string destination)]

def Action.json (action : Action) : Json :=
  .object [("type", .string action.keyword.title), ("params", action.params)]

def Step.json (step : Step) : Json :=
  .object [("action", step.action.json), ("line", .number step.line)]

end Script

def Script.json (script : Script) : Json :=
  .object [("steps", .array (script.steps.map Script.Step.json))]

end Rollout
