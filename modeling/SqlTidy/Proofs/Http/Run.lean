import SqlTidy.Http.Service

/-! Histories of a service: requests and the time between them. No history changes the
layout of a service. -/
namespace SqlTidy.Http

inductive Event where
  | request (request : Request)
  | sleep (ns : Nat)

namespace Service

variable {α : Type} [Tokens α]

def step (service : Service α) : Event → Service α
  | .request request => (service.handle request).service
  | .sleep ns => (service.sleep ns).2

def after (service : Service α) (events : List Event) : Service α := events.foldl step service

theorem pass_layout (request : Request) (endpoint : Option Endpoint) (stages : List Stage) (notes : Notes)
    (service : Service α) : (pass request endpoint stages notes service).service.layout = service.layout := by
  induction stages generalizing notes service with
  | nil => cases endpoint <;> rfl
  | cons stage stages ih =>
    cases stage with
    | requestId => exact ih _ _
    | bodyLimit => exact ih _ _
    | accessLog => exact ih _ _
    | rateLimit =>
      simp only [pass]
      split
      next => exact ih _ _
      next => rfl

theorem step_layout (service : Service α) (event : Event) : (service.step event).layout = service.layout := by
  cases event with
  | request request =>
    simp only [step,handle]
    split
    next => rfl
    next => exact pass_layout _ _ _ _ _
  | sleep ns => rfl

theorem after_layout (service : Service α) (events : List Event) : (service.after events).layout = service.layout := by
  induction events generalizing service with
  | nil => rfl
  | cons event events ih => exact (ih (service.step event)).trans (step_layout service event)

end Service
end SqlTidy.Http
