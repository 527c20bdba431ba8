/-
This file says what it means for a step that may fault to do its work.

Every pass is a chain of steps that may fault. Two questions are asked of each of them: what
its result is like when there is one, and when there must be one. Both are answered at once
by `Meets`: a result is good, and a fault can only come up if the step was not safe to take.
One induction over a pass then shows that its results are good and that a safe input causes
no fault. Two chains of steps are compared step by step in the same manner: they go the same way if
they end in the same fault or if the results of both are related.
-/

import PadLang.Fault

namespace PadLang

variable {ε α : Type}

/-! ### Results that meet a condition -/

/-- A result is good, and there is no fault if the step was safe. -/
def Meets {α : Type} (safe : Prop) (good : α → Prop) : Except Fault α → Prop
  | .ok value => good value
  | .error _ => ¬ safe

namespace Meets

variable {α β : Type} {safe : Prop} {good other : α → Prop} {better : β → Prop}
  {result : Except Fault α}

theorem ok {value : α} (holds : good value) : Meets safe good (.ok value) := holds

theorem pure {value : α} (holds : good value) :
    Meets safe good (Pure.pure value : Except Fault α) := holds

/-- A chain of two steps is good if the second makes a good result of every good result of
the first. -/
theorem bind {first : Except Fault α} {second : α → Except Fault β}
    (start : Meets safe good first)
    (next : ∀ value, good value → Meets safe better (second value)) :
    Meets safe better (first >>= second) := by
  cases first with
  | ok value => exact next value start
  | error fault => exact start

theorem mono (met : Meets safe good result) (implies : ∀ value, good value → other value) :
    Meets safe other result := by
  cases result with
  | ok value => exact implies value met
  | error fault => exact met

theorem and (first : Meets safe good result) (second : Meets safe other result) :
    Meets safe (fun value => good value ∧ other value) result := by
  cases result with
  | ok value => exact ⟨first, second⟩
  | error fault => exact first

/-- What is known of the results alone adds to what is known of a step. -/
theorem and_partial (first : Meets safe good result) (second : Meets False other result) :
    Meets safe (fun value => good value ∧ other value) result := by
  cases result with
  | ok value => exact ⟨first, second⟩
  | error fault => exact first

/-- What is known of a step under a condition adds to what is known of it. -/
theorem only_if {condition : Prop} (met : Meets safe good result)
    (strong : condition → Meets safe other result) :
    Meets safe (fun value => good value ∧ (condition → other value)) result := by
  cases result with
  | ok value => exact ⟨met, strong⟩
  | error fault => exact met

/-- A good result is the result of its step. -/
theorem with_eq (met : Meets safe good result) :
    Meets safe (fun value => result = .ok value ∧ good value) result := by
  cases result with
  | ok value => exact ⟨rfl, met⟩
  | error fault => exact met

/-- What holds of a step that is safe in fewer cases holds of it in these. -/
theorem weaken {wide : Prop} (met : Meets wide good result) (implies : safe → wide) :
    Meets safe good result := by
  cases result with
  | ok value => exact met
  | error fault => exact fun isSafe => met (implies isSafe)

/-- A fault of a step that was not safe says nothing. -/
theorem of_unsafe (isUnsafe : ¬ safe) : Meets safe (fun _ => True) result := by
  cases result with
  | ok value => trivial
  | error fault => exact isUnsafe

/-- The result of a step that ended well is good. -/
theorem good_of_ok {value : α} (met : Meets safe good result) (ended : result = .ok value) :
    good value := by
  subst ended
  exact met

/-- A safe step ends well. -/
theorem exists_ok (met : Meets safe good result) (isSafe : safe) :
    ∃ value, result = .ok value ∧ good value := by
  cases result with
  | ok value => exact ⟨value, rfl, met⟩
  | error fault => exact absurd isSafe met

end Meets

theorem eq_ok_of_toOption {result : Except ε α} {value : α} (seen : result.toOption = some value) :
    result = .ok value := by
  cases result with
  | ok _ =>
    cases seen
    rfl
  | error _ => cases seen

theorem error_ne_ok {error : ε} {value : α} : (Except.error error : Except ε α) ≠ .ok value := by
  intro same
  cases same

/-- A chain of two steps ends well just if both do. -/
theorem bind_eq_ok_iff {β : Type} {first : Except ε α} {second : α → Except ε β} {value : β} :
    first >>= second = .ok value ↔
      ∃ middle, first = .ok middle ∧ second middle = .ok value := by
  cases first with
  | ok middle =>
    constructor
    · intro ended
      exact ⟨middle, rfl, ended⟩
    · rintro ⟨other, same, ended⟩
      cases same
      exact ended
  | error fault =>
    constructor
    · intro ended
      cases ended
    · rintro ⟨other, same, _⟩
      cases same

namespace Counter

variable {safe : Prop} {second first : Nat}

theorem add_meets (small : safe → first + second < bound) :
    Meets safe (fun sum => sum = first + second ∧ first + second < bound)
      (add first second) := by
  unfold add
  split
  · exact Meets.ok ⟨rfl, by assumption⟩
  · rename_i large
    exact fun isSafe => large (small isSafe)

theorem multiply_meets (small : safe → first * second < bound) :
    Meets safe (fun product => product = first * second ∧ first * second < bound)
      (multiply first second) := by
  unfold multiply
  split
  · exact Meets.ok ⟨rfl, by assumption⟩
  · rename_i large
    exact fun isSafe => large (small isSafe)

end Counter

/-! ### Steps that go the same way -/

/-- Two steps end with the same fault, or with results that are related. -/
def Paired {α β : Type} (related : α → β → Prop) : Except Fault α → Except Fault β → Prop
  | .ok one, .ok two => related one two
  | .error one, .error two => one = two
  | _, _ => False

namespace Paired

variable {α β γ δ : Type} {related : α → β → Prop} {better : γ → δ → Prop}

/-- One step with itself. -/
theorem self {agrees : α → α → Prop} {result : Except Fault α}
    (reflexive : ∀ value, result = .ok value → agrees value value) :
    Paired agrees result result := by
  cases result with
  | ok value => exact reflexive value rfl
  | error fault => exact rfl

/-- Steps that go on after one and the same step. -/
theorem after {start : Except Fault α} {first : α → Except Fault γ} {second : α → Except Fault δ}
    (next : ∀ value, start = .ok value → Paired better (first value) (second value)) :
    Paired better (start >>= first) (start >>= second) := by
  cases start with
  | ok value => exact next value rfl
  | error fault => exact rfl

theorem mono {first : Except Fault α} {second : Except Fault β} {other : α → β → Prop}
    (paired : Paired related first second)
    (implies : ∀ one two, related one two → other one two) : Paired other first second := by
  match first, second, paired with
  | .ok one, .ok two, holds => exact implies one two holds
  | .error _, .error _, same => exact same

theorem bind {first : Except Fault α} {second : Except Fault β} {afterFirst : α → Except Fault γ}
    {afterSecond : β → Except Fault δ} (start : Paired related first second)
    (next : ∀ one two, first = .ok one → second = .ok two → related one two →
      Paired better (afterFirst one) (afterSecond two)) :
    Paired better (first >>= afterFirst) (second >>= afterSecond) := by
  match first, second, start with
  | .ok one, .ok two, holds => exact next one two rfl rfl holds
  | .error _, .error _, same => exact same

/-- Steps whose results come to the same once they are changed. -/
theorem of_map {first : Except Fault α} {second : Except Fault β} {change : α → γ} {alter : β → γ}
    (same : change <$> first = alter <$> second) :
    Paired (fun one two => change one = alter two) first second := by
  match first, second with
  | .ok one, .ok two => exact Except.ok.inj same
  | .error _, .error _ => exact Except.error.inj same
  | .ok _, .error _ => cases same
  | .error _, .ok _ => cases same

/-- Steps that both go the same way as a third one. -/
theorem join {first : Except Fault α} {second : Except Fault β} {third : Except Fault γ}
    {one : α → γ → Prop} {two : β → γ → Prop} (start : Paired one first third)
    (other : Paired two second third) :
    Paired (fun mine yours => ∃ shared, one mine shared ∧ two yours shared) first second := by
  match first, second, third, start, other with
  | .ok _, .ok _, .ok shared, holds, alsoHolds => exact ⟨shared, holds, alsoHolds⟩
  | .error _, .error _, .error _, same, alsoSame => exact same.trans alsoSame.symm

/-- Where one of two steps has a result, so has the other. -/
theorem of_ok {first : Except Fault α} {second : Except Fault β} {one : α}
    (paired : Paired related first second) (isOne : first = .ok one) :
    ∃ two, second = .ok two ∧ related one two := by
  subst isOne
  match second, paired with
  | .ok two, holds => exact ⟨two, rfl, holds⟩

end Paired

end PadLang
