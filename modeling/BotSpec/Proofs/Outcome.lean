import Mathlib.Data.List.Forall2

/-!
# Calculations that can fail

What a calculation in `Except` gives is followed step by step: a result of two steps comes from a
result of the first (`exists_of_bind_eq_ok`), and a result for each of a list from one result after
the other (`mapM_eq_ok_iff`). Two calculations that fail alike are compared by `SameOutcome`.
-/

namespace BotSpec

variable {ε α β : Type}

/-- The value of a calculation that does not fail. -/
theorem exists_of_isOk {x : Except ε β} (h : x.isOk = true) : ∃ b, x = .ok b := by
  cases x with
  | error e => cases h
  | ok b => exact ⟨b, rfl⟩

/-- A calculation does not fail if none of its two steps does. -/
theorem exists_bind_eq_ok {x : Except ε α} {f : α → Except ε β} {a : α} (hx : x = .ok a)
    (hf : ∃ b, f a = .ok b) :
    ∃ b, (x >>= f) = .ok b := by
  subst hx
  exact hf

/-- After a step with a result the calculation goes on with it. -/
theorem bind_of_eq_ok {x : Except ε α} {f : α → Except ε β} {a : α} (hx : x = .ok a) : (x >>= f) = f a := by
  subst hx
  rfl

/-- A step of a calculation that has a result. -/
theorem exists_of_bind_eq_ok {x : Except ε α} {f : α → Except ε β} {b : β} (h : (x >>= f) = .ok b) :
    ∃ a, x = .ok a ∧ f a = .ok b := by
  cases x with
  | error e => cases h
  | ok a => exact ⟨a, rfl, h⟩

/-- A calculation of two steps has the results of the second one on those of the first. -/
theorem bind_eq_ok_iff {x : Except ε α} {f : α → Except ε β} {b : β} :
    (x >>= f) = .ok b ↔ ∃ a, x = .ok a ∧ f a = .ok b := by
  constructor
  · exact exists_of_bind_eq_ok
  · rintro ⟨a, rfl, h⟩
    exact h

/-- An outcome that was changed was there before. -/
theorem exists_of_map_eq_ok {x : Except ε α} {f : α → β} {b : β} (h : x.map f = .ok b) :
    ∃ a, x = .ok a ∧ f a = b := by
  cases x with
  | error e => cases h
  | ok a => exact ⟨a, rfl, Except.ok.inj h⟩

/-- An error of a calculation is that of one of its two steps. -/
theorem eq_error_or_of_bind_eq_error {x : Except ε α} {f : α → Except ε β} {e : ε}
    (h : (x >>= f) = .error e) :
    x = .error e ∨ ∃ a, x = .ok a ∧ f a = .error e := by
  cases x with
  | error e' => exact Or.inl (congrArg _ (Except.error.inj h))
  | ok a => exact Or.inr ⟨a, rfl, h⟩

/-! ## Lists -/

/-- A list has results if each of its members has, and in the same order. -/
theorem mapM_eq_ok_iff {f : α → Except ε β} {xs : List α} {ys : List β} :
    xs.mapM f = .ok ys ↔ List.Forall₂ (fun x y => f x = .ok y) xs ys := by
  induction xs generalizing ys with
  | nil =>
    rw [List.mapM_nil, List.forall₂_nil_left_iff]
    exact ⟨fun h => (Except.ok.inj h).symm, fun h => h ▸ rfl⟩
  | cons x xs ih =>
    rw [List.mapM_cons, List.forall₂_cons_left_iff]
    constructor
    · intro h
      obtain ⟨y, hy, h⟩ := exists_of_bind_eq_ok h
      obtain ⟨others, hothers, h⟩ := exists_of_bind_eq_ok h
      cases h
      exact ⟨y, others, hy, ih.mp hothers, rfl⟩
    · rintro ⟨y, others, hy, hothers, rfl⟩
      rw [hy, ih.mpr hothers]
      rfl

/-- A result of a list is the result of one of its members. -/
theorem exists_of_mem_mapM {f : α → Except ε β} {xs : List α} {ys : List β} (h : xs.mapM f = .ok ys)
    {y : β} (hy : y ∈ ys) :
    ∃ x ∈ xs, f x = .ok y := by
  have hall := mapM_eq_ok_iff.mp h
  clear h
  induction hall with
  | nil => cases hy
  | @cons x y' xs ys hfirst _ ih =>
    rcases List.mem_cons.mp hy with rfl | hy
    · exact ⟨x, List.mem_cons_self, hfirst⟩
    · obtain ⟨x', hmem, hx'⟩ := ih hy
      exact ⟨x', List.mem_cons_of_mem _ hmem, hx'⟩

/-- The results of a list stand where its members stand. -/
theorem getElem?_of_mapM {f : α → Except ε β} {xs : List α} {ys : List β} (h : xs.mapM f = .ok ys) (i : Nat) :
    xs[i]?.map f = ys[i]?.map .ok := by
  have hall := mapM_eq_ok_iff.mp h
  clear h
  induction hall generalizing i with
  | nil => rfl
  | cons hfirst _ ih =>
    cases i with
    | zero => exact congrArg some hfirst
    | succ i => exact ih i

/-! ## Without the result -/

/-- What is left of a calculation when its result is not looked at: whether it failed, and with what
error. -/
def verdict (x : Except ε α) : Except ε Unit := x.map fun _ => ()

/-- The verdict on an outcome is good exactly if there is one. -/
theorem verdict_eq_ok_iff {x : Except ε α} : verdict x = .ok () ↔ ∃ a, x = .ok a := by
  cases x with
  | error e => exact ⟨nofun, nofun⟩
  | ok a => exact ⟨fun _ => ⟨a, rfl⟩, fun _ => rfl⟩

theorem verdict_eq_error_iff {x : Except ε α} {e : ε} : verdict x = .error e ↔ x = .error e := by
  cases x with
  | error e' => exact ⟨fun h => congrArg _ (Except.error.inj h), fun h => congrArg _ (Except.error.inj h)⟩
  | ok a => exact ⟨nofun, nofun⟩

/-- A calculation whose second step fails or not whatever the result of the first is. -/
theorem verdict_bind {x : Except ε α} {f : α → Except ε β} {first second : Except ε Unit} (hx : verdict x = first)
    (hf : ∀ a, x = .ok a → verdict (f a) = second) : verdict (x >>= f) = first >>= fun _ => second := by
  subst hx
  cases x with
  | error e => rfl
  | ok a => exact hf a rfl

/-- A calculation whose second step cannot fail. -/
theorem verdict_bind_ok {x : Except ε α} {f : α → Except ε β} {first : Except ε Unit} (hx : verdict x = first)
    (hf : ∀ a, x = .ok a → ∃ b, f a = .ok b) : verdict (x >>= f) = first :=
  (verdict_bind hx fun a ha => verdict_eq_ok_iff.mpr (hf a ha)).trans (bind_pure first)

/-- The verdict on a list is that on its members, one after the other. -/
theorem verdict_mapM (f : α → Except ε β) (xs : List α) :
    verdict (xs.mapM f) = forM xs fun x => verdict (f x) := by
  induction xs with
  | nil => rfl
  | cons x xs ih =>
    rw [List.mapM_cons]
    exact verdict_bind rfl fun y _ => verdict_bind_ok ih fun ys _ => ⟨y :: ys, rfl⟩

/-! ## Checks in a row -/

/-- To check all members of lists is to check the lists. -/
theorem forM_flatMap (f : β → Except ε Unit) (g : α → List β) (xs : List α) :
    forM (xs.flatMap g) f = forM xs fun x => forM (g x) f := by
  induction xs with
  | nil => rfl
  | cons x xs ih => rw [List.flatMap_cons, List.forM_append, ih, List.forM_cons]

theorem forM_congr {f g : α → Except ε Unit} {xs : List α} (h : ∀ x ∈ xs, f x = g x) :
    forM xs f = forM xs g := by
  induction xs with
  | nil => rfl
  | cons x xs ih =>
    rw [List.forM_cons, List.forM_cons, h x List.mem_cons_self, ih fun y hy => h y (List.mem_cons_of_mem x hy)]

theorem forM_eq_ok_iff {f : α → Except ε Unit} {xs : List α} : forM xs f = .ok () ↔ ∀ x ∈ xs, f x = .ok () := by
  induction xs with
  | nil => exact ⟨fun _ _ => nofun, fun _ => rfl⟩
  | cons x xs ih =>
    rw [List.forM_cons, List.forall_mem_cons, ← ih]
    constructor
    · intro h
      obtain ⟨_, hx, hxs⟩ := exists_of_bind_eq_ok h
      exact ⟨hx, hxs⟩
    · rintro ⟨hx, hxs⟩
      rw [hx]
      exact hxs

/-- A list of outcomes has one if each of its members has. -/
theorem exists_mapM_eq_ok_iff {f : α → Except ε β} {xs : List α} :
    (∃ ys, xs.mapM f = .ok ys) ↔ ∀ x ∈ xs, ∃ y, f x = .ok y := by
  rw [← verdict_eq_ok_iff, verdict_mapM, forM_eq_ok_iff]
  exact forall₂_congr fun x _ => verdict_eq_ok_iff

/-- The error of checks in a row is that of the first one that is not passed. -/
theorem forM_eq_error_iff {f : α → Except ε Unit} {xs : List α} {e : ε} :
    forM xs f = .error e ↔ ∃ before x after, xs = before ++ x :: after ∧ (∀ y ∈ before, f y = .ok ()) ∧ f x = .error e := by
  constructor
  · intro h
    induction xs with
    | nil => cases h
    | cons x xs ih =>
      rw [List.forM_cons] at h
      cases hx : f x with
      | error e' =>
        rw [hx] at h
        cases h
        exact ⟨[], x, xs, rfl, nofun, hx⟩
      | ok u =>
        rw [hx] at h
        obtain ⟨before, y, after, rfl, hbefore, hy⟩ := ih h
        exact ⟨x :: before, y, after, rfl, List.forall_mem_cons.mpr ⟨hx, hbefore⟩, hy⟩
  · rintro ⟨before, x, after, rfl, hbefore, hx⟩
    rw [List.forM_append, forM_eq_ok_iff.mpr hbefore, List.forM_cons, hx]
    rfl

/-! ## The same outcome -/

/-- The same error, or results that are related. -/
inductive SameOutcome (R : α → α → Prop) : Except ε α → Except ε α → Prop where
  | error (e : ε) : SameOutcome R (.error e) (.error e)
  | ok {a b : α} (h : R a b) : SameOutcome R (.ok a) (.ok b)

namespace SameOutcome

/-- After the same first step it is enough to compare what follows. -/
theorem bind {R : β → β → Prop} (x : Except ε α) {f g : α → Except ε β} (h : ∀ a, SameOutcome R (f a) (g a)) :
    SameOutcome R (x >>= f) (x >>= g) := by
  cases x with
  | error e => exact .error e
  | ok a => exact h a

/-- After related first steps, what follows is compared for related results. -/
theorem bind_related {R : α → α → Prop} {S : β → β → Prop} {x y : Except ε α} {f g : α → Except ε β}
    (h : SameOutcome R x y) (hf : ∀ a b, R a b → SameOutcome S (f a) (g b)) : SameOutcome S (x >>= f) (y >>= g) := by
  cases h with
  | error e => exact .error e
  | ok hab => exact hf _ _ hab

/-- It is enough to compare what follows for the results of these steps. -/
theorem bind_related_of_eq {R : α → α → Prop} {S : β → β → Prop} {x y : Except ε α} {f g : α → Except ε β}
    (h : SameOutcome R x y) (hf : ∀ a b, x = .ok a → y = .ok b → R a b → SameOutcome S (f a) (g b)) :
    SameOutcome S (x >>= f) (y >>= g) := by
  cases h with
  | error e => exact .error e
  | ok hab => exact hf _ _ rfl rfl hab

/-- Two steps that are exchanged. If both of them fail, they have to fail alike, since another one
is the first. -/
theorem bind_exchanged {R : α → α → Prop} {S : β → β → Prop} {x y x' y' : Except ε α} {f g : α → α → Except ε β}
    (hx : SameOutcome R x y') (hy : SameOutcome R y x') (halike : ∀ e e', x = .error e → y = .error e' → e = e')
    (hf : ∀ a b a' b', R a b' → R b a' → SameOutcome S (f a b) (g a' b')) :
    SameOutcome S (x >>= fun a => y >>= f a) (x' >>= fun a' => y' >>= g a') := by
  cases hx with
  | error e =>
    cases hy with
    | error e' =>
      cases halike e e' rfl rfl
      exact .error e
    | ok hy => exact .error e
  | ok hx =>
    cases hy with
    | error e' => exact .error e'
    | ok hy => exact hf _ _ _ _ hx hy

theorem exists_eq_ok {R : α → α → Prop} {x y : Except ε α} {a : α} (h : SameOutcome R x y) (hx : x = .ok a) :
    ∃ b, y = .ok b ∧ R a b := by
  subst hx
  cases h with
  | ok hab => exact ⟨_, rfl, hab⟩

/-- If only equals are related, outcomes that are related are equal. -/
theorem eq_of_imp {R : α → α → Prop} {x y : Except ε α} (h : SameOutcome R x y)
    (heq : ∀ {a b}, R a b → a = b) :
    y = x := by
  cases h with
  | error e => rfl
  | ok hab => rw [heq hab]

end SameOutcome

end BotSpec
