import Rollout.Deployment.Request

/-!
# Dialogues with the world

A dialogue is a computation that may ask the world for something and go on with the answer. It is a
finite tree: however the world answers, a dialogue comes to its end. Given a way to answer requests, a
dialogue can be carried out; without one it can still be reasoned about, for all answers at once.
-/

namespace Rollout.Deployment

/-- A computation of an `α` that asks for things on the way. -/
inductive Dialogue (α : Type) where
  | done (result : α)
  | ask (request : Request) (next : request.Answer → Dialogue α)

namespace Dialogue

/-- One dialogue after the other. -/
def bind {α β : Type} : Dialogue α → (α → Dialogue β) → Dialogue β
  | done result, next => next result
  | ask request rest, next => ask request fun answer => (rest answer).bind next

instance : Monad Dialogue where
  pure := done
  bind := bind

def request (request : Request) : Dialogue request.Answer :=
  ask request done

/-- Carries a dialogue out, answering its requests by the given effects. -/
def interpret {m : Type → Type} [Monad m] (answer : (request : Request) → m request.Answer) {α : Type} :
    Dialogue α → m α
  | done result => pure result
  | ask request next => do (next (← answer request)).interpret answer

end Dialogue

/-- A dialogue that may fail on the way. -/
abbrev Attempt (ε α : Type) : Type := ExceptT ε Dialogue α

namespace Attempt

def report {ε : Type} (report : Report) : Attempt ε Unit :=
  ExceptT.lift (Dialogue.request (.report report))

def session (id : SessionId) (call : SessionCall) : Attempt SessionError call.Result :=
  ExceptT.mk (Dialogue.request (.session id call))

/-- The same attempt with its failure seen as part of another. -/
def failingAs {ε ε' α : Type} (wrap : ε → ε') (attempt : Attempt ε α) : Attempt ε' α :=
  ExceptT.adapt wrap attempt

/-- A request that may fail, its failure seen as part of another. -/
def asking {ε ε' α : Type} (wrap : ε → ε') (dialogue : Dialogue (Except ε α)) : Attempt ε' α :=
  ExceptT.adapt wrap (ExceptT.mk dialogue)

/-- The sum of what an attempt returns for each element, in order, up to the first failure. -/
def total {ε β : Type} (attempt : β → Attempt ε Nat) : List β → Attempt ε Nat
  | [] => pure 0
  | element :: rest => do
    let count ← attempt element
    return count + (← total attempt rest)

end Attempt

end Rollout.Deployment
