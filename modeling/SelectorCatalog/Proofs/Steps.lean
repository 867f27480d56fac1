import Mathlib.Data.List.Forall2
import SelectorCatalog.Corpus.Malformed
import SelectorCatalog.Stop

/-!
# What a step that may fail comes to

A step either fails or gives a result. `Yields` says what is known of the result, `FailsOnly` what
is known of the failure, `Succeeds` that there is a result, and `Gives` that there is one with a
property. The rules below lead each of them through a sequence of steps, so that a fact about a long
reader is proved without taking the reader's steps apart again.
-/

set_option autoImplicit false

namespace SelectorCatalog

variable {ε α β : Type}

theorem ok_bind (a : α) (next : α → Except ε β) : ((.ok a : Except ε α) >>= next) = next a := rfl

theorem bind_eq_ok {step : Except ε α} {next : α → Except ε β} {b : β} :
    (step >>= next) = .ok b ↔ ∃ a, step = .ok a ∧ next a = .ok b := by
  cases step with
  | error e =>
    constructor
    · intro h
      cases h
    · rintro ⟨a, h, -⟩
      cases h
  | ok a =>
    constructor
    · exact fun h => ⟨a, rfl, h⟩
    · rintro ⟨c, h, later⟩
      cases h
      exact later

theorem bind_eq_error {step : Except ε α} {next : α → Except ε β} {e : ε} :
    (step >>= next) = .error e ↔ step = .error e ∨ ∃ a, step = .ok a ∧ next a = .error e := by
  cases step with
  | error d =>
    constructor
    · rintro ⟨⟩
      exact .inl rfl
    · rintro (⟨⟨⟩⟩ | ⟨a, ⟨⟩, -⟩)
      rfl
  | ok a =>
    constructor
    · exact fun h => .inr ⟨a, rfl, h⟩
    · rintro (⟨⟨⟩⟩ | ⟨b, ⟨⟩, later⟩)
      exact later

theorem mapError_eq_ok {δ : Type} {step : Except ε α} {f : ε → δ} {a : α} :
    step.mapError f = .ok a ↔ step = .ok a := by
  cases step with
  | error e =>
    constructor <;>
      · intro h
        cases h
  | ok b =>
    constructor <;>
      · rintro ⟨⟩
        rfl

theorem map_eq_ok {step : Except ε α} {f : α → β} {b : β} :
    step.map f = .ok b ↔ ∃ a, step = .ok a ∧ f a = b := by
  cases step <;> simp [Except.map]

theorem map_eq_error {step : Except ε α} {f : α → β} {e : ε} :
    step.map f = .error e ↔ step = .error e := by
  cases step <;> simp [Except.map]

theorem Stop.lift_eq_ok {step : Except Fault α} {a : α} :
    (Stop.lift step : Except (Stop ε) α) = .ok a ↔ step = .ok a := mapError_eq_ok

theorem Stop.lift_ne_failure (step : Except Fault α) (reason : ε) :
    (Stop.lift step : Except (Stop ε) α) ≠ .error (.failure reason) := by
  cases step <;> simp [Stop.lift, Except.mapError]

theorem mapM_ok {f : α → Except ε β} {g : α → β} {items : List α}
    (h : ∀ a ∈ items, f a = .ok (g a)) : items.mapM f = .ok (items.map g) := by
  induction items with
  | nil => rfl
  | cons a rest ih =>
    rw [List.mapM_cons, h a List.mem_cons_self, ih fun b hb => h b (List.mem_cons_of_mem _ hb)]
    rfl

/-- A fold commutes with a change of what it works on if each of its steps does. -/
theorem foldlM_map {γ : Type} {f : β → α → Except ε β} {h : γ → α → Except ε γ} {g : β → γ}
    (each : ∀ b a, (f b a).map g = h (g b) a) (items : List α) (b : β) :
    (items.foldlM f b).map g = items.foldlM h (g b) := by
  induction items generalizing b with
  | nil => rfl
  | cons a rest ih =>
    rw [List.foldlM_cons, List.foldlM_cons, ← each b a]
    cases f b a with
    | error e => rfl
    | ok c => exact ih c

/-- A fold fails exactly if one of its steps does, after those before it. -/
theorem foldlM_eq_error {f : β → α → Except ε β} {items : List α} {b : β} {e : ε} :
    items.foldlM f b = .error e ↔ ∃ before a after c, items = before ++ a :: after ∧
      before.foldlM f b = .ok c ∧ f c a = .error e := by
  constructor
  · intro failed
    induction items generalizing b with
    | nil => cases failed
    | cons a rest ih =>
      rw [List.foldlM_cons] at failed
      rcases bind_eq_error.1 failed with first | ⟨c, first, later⟩
      · exact ⟨[], a, rest, b, rfl, rfl, first⟩
      · obtain ⟨before, d, after, c', rfl, done, last⟩ := ih later
        exact ⟨a :: before, d, after, c', rfl, by rw [List.foldlM_cons, first]; exact done, last⟩
  · rintro ⟨before, a, after, c, rfl, done, last⟩
    rw [List.foldlM_append, done, ok_bind, List.foldlM_cons, last]
    rfl

/-- Steps at all items give a list exactly if each of them gives its item. -/
theorem mapM_eq_ok {f : α → Except ε β} {items : List α} {found : List β} :
    items.mapM f = .ok found ↔ List.Forall₂ (fun a b => f a = .ok b) items found := by
  induction items generalizing found with
  | nil => simp [pure, Except.pure, eq_comm]
  | cons a rest ih =>
    simp only [List.mapM_cons, bind_eq_ok, ih, List.forall₂_cons_left_iff]
    refine exists_congr fun b => ?_
    constructor
    · rintro ⟨first, bs, others, ⟨⟩⟩
      exact ⟨bs, first, others, rfl⟩
    · rintro ⟨bs, first, others, rfl⟩
      exact ⟨first, bs, others, rfl⟩

theorem mem_of_mapM {f : α → Except ε β} {items : List α} {found : List β}
    (h : items.mapM f = .ok found) {b : β} : b ∈ found ↔ ∃ a ∈ items, f a = .ok b := by
  have each := mapM_eq_ok.1 h
  clear h
  induction each with
  | nil => simp
  | cons first _ ih =>
    simp only [List.mem_cons, exists_eq_or_imp, first, Except.ok.injEq, ih]
    rw [eq_comm]

theorem ok_of_toOption {step : Except ε α} {a : α} (h : step.toOption = some a) : step = .ok a := by
  cases step with
  | error e => cases h
  | ok b =>
    cases h
    rfl

/-- If the step gives a result, the result has a property. -/
def Yields (step : Except ε α) (P : α → Prop) : Prop := ∀ a, step = .ok a → P a

namespace Yields

/-- What is known of any result: that it is the result. -/
theorem self {step : Except ε α} : Yields step fun a => step = .ok a := fun _ h => h

theorem error (e : ε) (P : α → Prop) : Yields (.error e : Except ε α) P := by
  intro a h
  cases h

theorem throw (e : ε) (P : α → Prop) : Yields (throw e : Except ε α) P := error e P

theorem ok {a : α} {P : α → Prop} (h : P a) : Yields (.ok a : Except ε α) P := by
  intro b e
  cases e
  exact h

theorem pure {a : α} {P : α → Prop} (h : P a) : Yields (pure a : Except ε α) P := ok h

theorem bind {step : Except ε α} {next : α → Except ε β} {P : α → Prop} {Q : β → Prop}
    (first : Yields step P) (rest : ∀ a, P a → Yields (next a) Q) : Yields (step >>= next) Q := by
  intro b h
  obtain ⟨a, found, later⟩ := bind_eq_ok.1 h
  exact rest a (first a found) b later

/-- A step of whose result nothing has to be known. -/
theorem skip {step : Except ε α} {next : α → Except ε β} {Q : β → Prop}
    (rest : ∀ a, Yields (next a) Q) : Yields (step >>= next) Q :=
  bind (P := fun _ => True) (fun _ _ => trivial) fun a _ => rest a

/-- What follows a step may be replaced by what does the same at its results. -/
theorem bind_congr {step : Except ε α} {next other : α → Except ε β} {P : α → Prop}
    (first : Yields step P) (same : ∀ a, P a → next a = other a) :
    (step >>= next) = (step >>= other) := by
  cases step with
  | error e => rfl
  | ok a => exact same a (first a rfl)

theorem imp {step : Except ε α} {P Q : α → Prop} (h : Yields step P) (weaker : ∀ a, P a → Q a) :
    Yields step Q :=
  fun a e => weaker a (h a e)

/-- What is known of the result under a condition. -/
theorem under {step : Except ε α} {C : Prop} {P : α → Prop} (h : C → Yields step P) :
    Yields step fun a => C → P a := fun a e c => h c a e

theorem mapError {δ : Type} {step : Except ε α} {P : α → Prop} (h : Yields step P) (f : ε → δ) :
    Yields (step.mapError f) P := fun a e => h a (mapError_eq_ok.1 e)

theorem map {step : Except ε α} {f : α → β} {P : β → Prop} (h : Yields step fun a => P (f a)) :
    Yields (step.map f) P := by
  intro b e
  cases step with
  | error x => cases e
  | ok a =>
    cases e
    exact h a rfl

/-- What each step of a fold preserves, the fold preserves. -/
theorem foldlM {f : β → α → Except ε β} {P : β → Prop} (each : ∀ b a, P b → Yields (f b a) P) :
    ∀ (items : List α) {b : β}, P b → Yields (items.foldlM f b) P
  | [], _, h => pure h
  | a :: rest, b, h => by
    rw [List.foldlM_cons]
    exact bind (each b a h) fun c hc => foldlM each rest hc

/-- What is known after the items so far and led on by one more item is known after all items. -/
theorem foldlM_from {f : β → α → Except ε β} {Q : List α → β → Prop}
    (each : ∀ done b a, Q done b → Yields (f b a) (Q (done ++ [a]))) :
    ∀ (items done : List α) {b : β}, Q done b → Yields (items.foldlM f b) (Q (done ++ items))
  | [], done, _, h => pure (by simpa using h)
  | a :: rest, done, b, h => by
    rw [List.foldlM_cons]
    refine bind (each done b a h) fun c hc => ?_
    simpa using foldlM_from each rest (done ++ [a]) hc

end Yields

/-! ## Failures -/

/-- If the step fails, the failure has a property. -/
def FailsOnly (step : Except ε α) (P : ε → Prop) : Prop := ∀ e, step = .error e → P e

namespace FailsOnly

variable {P : ε → Prop}

theorem ok (a : α) : FailsOnly (.ok a : Except ε α) P := by
  intro e h
  cases h

theorem pure (a : α) : FailsOnly (pure a : Except ε α) P := ok a

theorem error {e : ε} (h : P e) : FailsOnly (.error e : Except ε α) P := by
  intro d same
  cases same
  exact h

theorem bind {step : Except ε α} {next : α → Except ε β} (first : FailsOnly step P)
    (rest : ∀ a, FailsOnly (next a) P) : FailsOnly (step >>= next) P := by
  intro e h
  cases step with
  | error d =>
    cases h
    exact first _ rfl
  | ok a => exact rest a e h

theorem map {step : Except ε α} (h : FailsOnly step P) (f : α → β) : FailsOnly (step.map f) P := by
  intro e same
  cases step with
  | error d =>
    cases same
    exact h _ rfl
  | ok a => cases same

theorem mapM {f : α → Except ε β} (each : ∀ a, FailsOnly (f a) P) :
    ∀ items : List α, FailsOnly (items.mapM f) P
  | [] => pure []
  | a :: rest => by
    rw [List.mapM_cons]
    exact bind (each a) fun b => bind (mapM each rest) fun bs => pure (b :: bs)

end FailsOnly

/-! ## Success -/

/-- The step gives a result. -/
def Succeeds (step : Except ε α) : Prop := ∃ a, step = .ok a

@[simp] theorem succeeds_ok (a : α) : Succeeds (.ok a : Except ε α) := ⟨a, rfl⟩

@[simp] theorem succeeds_pure (a : α) : Succeeds (pure a : Except ε α) := ⟨a, rfl⟩

@[simp] theorem not_succeeds_error (e : ε) : ¬Succeeds (.error e : Except ε α) := by
  rintro ⟨a, h⟩
  cases h

theorem succeeds_of_isOk {step : Except ε α} (h : step.isOk = true) : Succeeds step := by
  cases step with
  | error e => cases h
  | ok a => exact succeeds_ok a

theorem succeeds_bind {step : Except ε α} {next : α → Except ε β} :
    Succeeds (step >>= next) ↔ ∃ a, step = .ok a ∧ Succeeds (next a) := by
  simp only [Succeeds, bind_eq_ok]
  rw [exists_comm]
  simp only [exists_and_left]

theorem succeeds_map {step : Except ε α} {f : α → β} : Succeeds (f <$> step) ↔ Succeeds step := by
  cases step with
  | error e => exact iff_of_false (not_succeeds_error e) (not_succeeds_error e)
  | ok a => exact iff_of_true (succeeds_ok _) (succeeds_ok a)

theorem succeeds_mapM {f : α → Except ε β} {items : List α} :
    Succeeds (items.mapM f) ↔ ∀ a ∈ items, Succeeds (f a) := by
  induction items with
  | nil => simp
  | cons a rest ih =>
    rw [List.mapM_cons, List.forall_mem_cons, ← ih, succeeds_bind]
    refine ⟨?_, ?_⟩
    · rintro ⟨b, first, later⟩
      obtain ⟨bs, others, -⟩ := succeeds_bind.1 later
      exact ⟨⟨b, first⟩, bs, others⟩
    · rintro ⟨⟨b, first⟩, bs, others⟩
      exact ⟨b, first, succeeds_bind.2 ⟨bs, others, succeeds_pure _⟩⟩

/-- The step gives a result, and the result has a property. -/
def Gives (step : Except ε α) (P : α → Prop) : Prop := ∃ a, step = .ok a ∧ P a

namespace Gives

variable {P : α → Prop}

theorem ok {a : α} (h : P a) : Gives (.ok a : Except ε α) P := ⟨a, rfl, h⟩

theorem pure {a : α} (h : P a) : Gives (pure a : Except ε α) P := ok h

theorem imp {step : Except ε α} {Q : α → Prop} (h : Gives step P) (weaker : ∀ a, P a → Q a) :
    Gives step Q := by
  obtain ⟨a, found, holds⟩ := h
  exact ⟨a, found, weaker a holds⟩

theorem bind {step : Except ε α} {next : α → Except ε β} {Q : β → Prop} (first : Gives step P)
    (rest : ∀ a, P a → Gives (next a) Q) : Gives (step >>= next) Q := by
  obtain ⟨a, rfl, h⟩ := first
  exact rest a h

theorem mapError {δ : Type} {step : Except ε α} (h : Gives step P) (f : ε → δ) :
    Gives (step.mapError f) P := by
  obtain ⟨a, rfl, holds⟩ := h
  exact ok holds

/-- What each step of a fold gives, the fold gives. -/
theorem foldlM {f : β → α → Except ε β} {Q : β → Prop} :
    ∀ {items : List α}, (∀ a ∈ items, ∀ b, Q b → Gives (f b a) Q) → ∀ {b : β}, Q b →
      Gives (items.foldlM f b) Q
  | [], _, _, h => pure h
  | a :: rest, each, b, h => by
    have ⟨first, others⟩ := List.forall_mem_cons.1 each
    rw [List.foldlM_cons]
    exact bind (first b h) fun c hc => foldlM others hc

end Gives

end SelectorCatalog
