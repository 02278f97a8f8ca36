/-!
# Results and refusals

How a sequence of steps that may be refused comes apart.
-/

namespace BucketAdmin

variable {ε ε' α β : Type}

@[simp] theorem ok_bind (a : α) (f : α → Except ε β) : (Except.ok a >>= f) = f a := rfl

@[simp] theorem error_bind (e : ε) (f : α → Except ε β) : (Except.error e >>= f) = .error e := rfl

@[simp] theorem map_ok (f : α → β) (a : α) : f <$> (Except.ok a : Except ε α) = .ok (f a) := rfl

theorem bind_eq_ok {x : Except ε α} {f : α → Except ε β} {b : β} :
    (x >>= f) = .ok b ↔ ∃ a, x = .ok a ∧ f a = .ok b := by
  cases x with
  | ok a => simp
  | error e => simp

theorem bind_eq_error {x : Except ε α} {f : α → Except ε β} {e : ε} :
    (x >>= f) = .error e ↔ x = .error e ∨ ∃ a, x = .ok a ∧ f a = .error e := by
  cases x with
  | ok a => simp
  | error e' => simp

@[simp] theorem mapError_ok (f : ε → ε') (a : α) :
    (Except.ok a : Except ε α).mapError f = .ok a := rfl

@[simp] theorem mapError_error (f : ε → ε') (e : ε) :
    (Except.error e : Except ε α).mapError f = .error (f e) := rfl

theorem mapError_eq_ok {x : Except ε α} {f : ε → ε'} {a : α} :
    x.mapError f = .ok a ↔ x = .ok a := by
  cases x <;> simp

theorem mapError_eq_error {x : Except ε α} {f : ε → ε'} {e : ε'} :
    x.mapError f = .error e ↔ ∃ e', x = .error e' ∧ f e' = e := by
  cases x <;> simp

theorem map_eq_ok {x : Except ε α} {f : α → β} {b : β} :
    x.map f = .ok b ↔ ∃ a, x = .ok a ∧ f a = b := by
  cases x <;> simp [Except.map]

/-- Items that are each undone are undone together, in order. -/
theorem mapM_map_eq_ok {write : α → β} {item : β → Except ε α} {xs : List α}
    (h : ∀ x ∈ xs, item (write x) = .ok x) : (xs.map write).mapM item = .ok xs := by
  induction xs with
  | nil => rfl
  | cons x xs ih =>
    rw [List.map_cons, List.mapM_cons, h x List.mem_cons_self, ok_bind,
      ih fun y hy => h y (List.mem_cons_of_mem _ hy)]
    rfl

theorem exists_mapM_eq_ok {item : β → Except ε α} {xs : List β}
    (h : ∀ x ∈ xs, ∃ a, item x = .ok a) : ∃ as, xs.mapM item = .ok as := by
  induction xs with
  | nil => exact ⟨[], rfl⟩
  | cons x xs ih =>
    obtain ⟨⟨a, ha⟩, hxs⟩ := List.forall_mem_cons.mp h
    obtain ⟨as, has⟩ := ih hxs
    exact ⟨a :: as, by rw [List.mapM_cons, ha, ok_bind, has, ok_bind]; rfl⟩

/-- Where no item before it fails, an item that fails decides. -/
theorem mapM_eq_error {item : β → Except ε α} {before after : List β} {b : β} {e : ε}
    (hbefore : ∀ x ∈ before, ∃ a, item x = .ok a) (hb : item b = .error e) :
    (before ++ b :: after).mapM item = .error e := by
  obtain ⟨as, has⟩ := exists_mapM_eq_ok hbefore
  rw [List.mapM_append, has, ok_bind, List.mapM_cons, hb, error_bind, error_bind]

theorem mapM_congr {item item' : β → Except ε α} {xs : List β} (h : ∀ x ∈ xs, item x = item' x) :
    xs.mapM item = xs.mapM item' := by
  induction xs with
  | nil => rfl
  | cons x xs ih =>
    obtain ⟨hx, hxs⟩ := List.forall_mem_cons.mp h
    rw [List.mapM_cons, List.mapM_cons, hx, ih hxs]

theorem mapM_mapError (f : ε → ε') (item : β → Except ε α) (xs : List β) :
    (xs.mapM item).mapError f = xs.mapM fun x => (item x).mapError f := by
  induction xs with
  | nil => rfl
  | cons x xs ih =>
    rw [List.mapM_cons, List.mapM_cons, ← ih]
    cases item x with
    | error e => rfl
    | ok a => cases xs.mapM item <;> rfl

/-- Where no item fails in the first of two steps, the steps may be taken item by item. -/
theorem mapM_bind_mapM {γ : Type} {first : γ → Except ε β} {second : β → Except ε α} {xs : List γ}
    (h : ∀ x ∈ xs, ∃ b, first x = .ok b) :
    (xs.mapM first >>= fun bs => bs.mapM second) = xs.mapM fun x => first x >>= second := by
  induction xs with
  | nil => rfl
  | cons x xs ih =>
    obtain ⟨⟨b, hb⟩, hxs⟩ := List.forall_mem_cons.mp h
    obtain ⟨bs, hbs⟩ := exists_mapM_eq_ok hxs
    have hcons : (x :: xs).mapM first = .ok (b :: bs) := by
      rw [List.mapM_cons, hb, ok_bind, hbs, ok_bind]
      rfl
    rw [hcons, ok_bind, List.mapM_cons, List.mapM_cons, hb, ok_bind, ← ih hxs, hbs, ok_bind]

end BucketAdmin
