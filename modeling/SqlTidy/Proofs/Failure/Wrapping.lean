import SqlTidy.Failure

/-! Messages put before a failure. However many there are, plain or formatted, they make its
text longer and nothing else: which of the known causes it has is decided by what stands below
all messages, and never by a text. -/
namespace SqlTidy

namespace Failure

/-- What the three tests say; if there is no failure, none of them holds. -/
def verdicts (failure : Option Failure) : List Bool :=
  [failure.any isInvalidInput,failure.any isPayloadTooLarge,failure.any isRateLimited]

section Descent

/-- The first failure is met on the way down from the second. -/
inductive Within (met : Failure) : Failure → Prop where
  | here : Within met met
  | deeper (text : Bytes) (claims : Cause → Bool) (causes : List Failure) (failure : Failure)
      (member : failure ∈ causes) (within : Within met failure) : Within met (made text claims causes)

/-- The failure itself is the cause, or passes itself off as it. -/
def Answers (cause : Cause) : Failure → Prop
  | known other => other = cause
  | made _ claims _ => claims cause = true

theorem anyIs_iff (cause : Cause) (failures : List Failure) :
    anyIs cause failures = true ↔ ∃ failure ∈ failures, failure.is cause = true := by
  induction failures with
  | nil => simp [anyIs]
  | cons failure failures ih => simp [anyIs,ih]

theorem within_made (met : Failure) (text : Bytes) (claims : Cause → Bool) (causes : List Failure) :
    Within met (made text claims causes) ↔
      met = made text claims causes ∨ ∃ failure ∈ causes, Within met failure := by
  constructor
  · intro within
    cases within with
    | here => exact .inl rfl
    | deeper _ _ _ failure member within => exact .inr ⟨failure,member,within⟩
  · rintro (rfl | ⟨failure,member,within⟩)
    · exact .here
    · exact .deeper text claims causes failure member within

/-- What holds of the known causes, and of a failure if it holds of all right below it, holds of
every failure. -/
@[elab_as_elim] theorem descent {motive : Failure → Prop} (known : ∀ cause, motive (known cause))
    (made : ∀ text claims causes, (∀ failure ∈ causes, motive failure) → motive (made text claims causes))
    (failure : Failure) : motive failure :=
  @Failure.rec motive (fun failures => ∀ failure ∈ failures, motive failure) known made (by simp)
    (fun _ _ first rest => List.forall_mem_cons.mpr ⟨first,rest⟩) failure

/-- Every failure on the way down has at most one right below it and none passes itself off as a
known cause. -/
def IsChain (failure : Failure) : Prop :=
  ∀ met, Within met failure → match met with
    | known _ => True
    | made _ claims causes => (∀ cause, claims cause = false) ∧ causes.length ≤ 1

theorem IsChain.cause_unique (failure : Failure) (chain : failure.IsChain) (cause other : Cause)
    (first : failure.is cause = true) (second : failure.is other = true) : cause = other := by
  induction failure using descent with
  | known found =>
    simp only [is,beq_iff_eq] at first second
    exact first.symm.trans second
  | made text claims causes ih =>
    obtain ⟨silent,single⟩ := chain _ .here
    simp only [is,silent,Bool.false_or,anyIs_iff] at first second
    obtain ⟨failure,member,first⟩ := first
    obtain ⟨failure',member',second⟩ := second
    have only : causes = [failure] := by
      cases causes with
      | nil => simp at member
      | cons head tail =>
        obtain rfl : tail = [] := by simpa using single
        rw [List.mem_singleton.mp member]
    obtain rfl : failure' = failure := by simpa [only] using member'
    exact ih _ member (fun met within => chain met (.deeper _ _ _ _ member within)) first second

theorem IsChain.under (message : Bytes) (failure : Failure) (chain : failure.IsChain) :
    IsChain (under message failure) := by
  intro met within
  rcases (within_made _ _ _ _).mp within with rfl | ⟨found,member,further⟩
  · exact ⟨fun _ => rfl,Nat.le_refl 1⟩
  · obtain rfl := List.mem_singleton.mp member
    exact chain met further

theorem IsChain.count_verdicts (failure : Failure) (chain : failure.IsChain) :
    (verdicts (some failure)).count true ≤ 1 := by
  have unique := chain.cause_unique failure
  simp only [verdicts,Option.any_some,isInvalidInput,isPayloadTooLarge,isRateLimited]
  cases invalid : failure.is .invalidInput with
  | true =>
    have large : failure.is .payloadTooLarge = false :=
      Bool.eq_false_iff.mpr fun yes => Cause.noConfusion (unique _ _ invalid yes)
    have limited : failure.is .rateLimited = false :=
      Bool.eq_false_iff.mpr fun yes => Cause.noConfusion (unique _ _ invalid yes)
    simp [large,limited]
  | false =>
    cases large : failure.is .payloadTooLarge with
    | true =>
      have limited : failure.is .rateLimited = false :=
        Bool.eq_false_iff.mpr fun yes => Cause.noConfusion (unique _ _ large yes)
      simp [limited]
    | false => cases failure.is .rateLimited <;> simp

end Descent

/-- A message for a failure: as it is, or still to be made from a pattern and values. -/
inductive Wrap (α : Type) where
  | plain (message : Bytes)
  | formatted (pattern : Bytes) (arguments : List α)

section Wrapping

variable {α : Type} (format : Bytes → List α → Bytes)

namespace Wrap

def message : Wrap α → Bytes
  | plain message => message
  | formatted pattern arguments => format pattern arguments

def put : Wrap α → Option Failure → Option Failure
  | plain message => wrap message
  | formatted pattern arguments => wrapWith format pattern arguments

end Wrap

end Wrapping

/-- A failure with two causes below it has both. -/
example : verdicts (some (made (utf8 "both") (fun _ => false) [invalidInput,rateLimited])) = [true,false,true] := rfl

end Failure
end SqlTidy
