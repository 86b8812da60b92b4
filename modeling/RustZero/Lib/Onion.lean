import Mathlib

/-!
# Layers around a handler

A handler answers a request with effects in a monad, and a middleware answers it with the next
handler at hand.  Middlewares that look at the request on the way in and at the answer on the way
out are layers, and a chain of layers is an onion.

* `wrap` puts middlewares around a handler, the first outermost.
* `descend` takes a request through the layers until one refuses it, and `ascend` takes an answer
  back through the layers that were passed.
* `wrap_layers`: a chain of layers goes in and comes back out.
-/

namespace RustZero.Lib

variable {m : Type → Type} {ρ β : Type}

abbrev Handler (m : Type → Type) (ρ β : Type) := ρ → m β

/-- How a request is answered with the rest of the chain at hand. -/
abbrev Middleware (m : Type → Type) (ρ β : Type) := ρ → Handler m ρ β → m β

/-- The middlewares around the handler, the first outermost. -/
def wrap (layers : List (Middleware m ρ β)) (inner : Handler m ρ β) : Handler m ρ β :=
  layers.foldr (fun layer next request => layer request next) inner

@[simp] theorem wrap_nil (inner : Handler m ρ β) : wrap [] inner = inner :=
  rfl

@[simp] theorem wrap_cons (layer : Middleware m ρ β) (layers : List (Middleware m ρ β))
    (inner : Handler m ρ β) (request : ρ) :
    wrap (layer :: layers) inner request = layer request (wrap layers inner) :=
  rfl

/-- A look at the request, which may be refused with an answer, and at the answer. -/
structure Layer (m : Type → Type) (ρ β : Type) where
  before : ρ → m (Except β ρ)
  after : β → m β

section Layers

variable [Monad m]

def Layer.middleware (layer : Layer m ρ β) : Middleware m ρ β := fun request next => do
  match ← layer.before request with
  | .error answer => pure answer
  | .ok request => layer.after (← next request)

/-- The layers that were passed, the innermost first, and what came of the request. -/
def descend : List (Layer m ρ β) → ρ → m (List (Layer m ρ β) × Except β ρ)
  | [], request => pure ([], .ok request)
  | layer :: layers, request => do
      match ← layer.before request with
      | .error answer => pure ([], .error answer)
      | .ok request => do
          let (passed, result) ← descend layers request
          pure (passed ++ [layer], result)

/-- The answer on its way through these layers. -/
def ascend (passed : List (Layer m ρ β)) (answer : β) : m β :=
  passed.foldlM (fun answer layer => layer.after answer) answer

/-- The answer of a refused request, or that of the handler. -/
def answerWith (inner : Handler m ρ β) : Except β ρ → m β
  | .error answer => pure answer
  | .ok request => inner request

variable [LawfulMonad m]

theorem ascend_concat (passed : List (Layer m ρ β)) (layer : Layer m ρ β) (answer : β) :
    ascend (passed ++ [layer]) answer = ascend passed answer >>= layer.after := by
  rw [ascend, List.foldlM_append, ascend]
  simp [List.foldlM_cons]

/-- A request goes in through the layers up to the first that refuses it, and the answer comes
out through those that were passed. -/
theorem wrap_layers (layers : List (Layer m ρ β)) (inner : Handler m ρ β) (request : ρ) :
    wrap (layers.map Layer.middleware) inner request =
      (do
        let (passed, result) ← descend layers request
        let answer ← answerWith inner result
        ascend passed answer) := by
  induction layers generalizing request with
  | nil => simp [descend, answerWith, ascend]
  | cons layer layers ih =>
      rw [List.map_cons, wrap_cons, Layer.middleware, descend, bind_assoc]
      congr 1
      funext looked
      cases looked with
      | error answer => simp [answerWith, ascend]
      | ok request =>
          simp only [ih, bind_assoc, pure_bind]
          congr 1
          funext reached
          simp [ascend_concat]

end Layers

end RustZero.Lib
