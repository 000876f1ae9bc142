import Mathlib.Data.List.Basic

/-!
# Computations that may be refused

A composite computation gives a result exactly if its parts do.
-/

namespace ContractInterface

variable {ε α β : Type}

theorem bind_eq_ok_iff {x : Except ε α} {f : α → Except ε β} {b : β} :
  x >>= f = .ok b ↔ ∃ a, x = .ok a ∧ f a = .ok b
  := by
  cases x with
  | error e => simp [bind, Except.bind]
  | ok a => simp [bind, Except.bind]

theorem bind_eq_error_iff {x : Except ε α} {f : α → Except ε β} {e : ε} :
  x >>= f = .error e ↔ x = .error e ∨ ∃ a, x = .ok a ∧ f a = .error e
  := by
  cases x with
  | error e => simp [bind, Except.bind]
  | ok a => simp [bind, Except.bind]

theorem map_eq_ok_iff {f : α → β} {x : Except ε α} {b : β} :
  f <$> x = .ok b ↔ ∃ a, x = .ok a ∧ f a = b
  := by
  cases x with
  | error e => simp [Functor.map, Except.map]
  | ok a => simp [Functor.map, Except.map]

theorem mapError_eq_ok_iff {ε' : Type} {f : ε → ε'} {x : Except ε α} {a : α} :
  x.mapError f = .ok a ↔ x = .ok a
  := by
  cases x with
  | error e => simp [Except.mapError]
  | ok a => simp [Except.mapError]

theorem mapError_eq_error_iff {ε' : Type} {f : ε → ε'} {x : Except ε α} {e : ε'} :
  x.mapError f = .error e ↔ ∃ cause, x = .error cause ∧ f cause = e
  := by
  cases x with
  | error e => simp [Except.mapError]
  | ok a => simp [Except.mapError]

theorem exists_of_isOk {x : Except ε α} (h : x.isOk = true) :
  ∃ a, x = .ok a
  := by
  cases x with
  | error e => contradiction
  | ok a => exact ⟨a, rfl⟩

/-- The results of a list of computations are results of its members. -/
theorem exists_of_mem_mapM {f : α → Except ε β} {as : List α} {bs : List β}
    (h : as.mapM f = .ok bs) :
  ∀ b ∈ bs, ∃ a ∈ as, f a = .ok b
  := by
  induction as generalizing bs with
  | nil =>
      obtain rfl := Except.ok.inj h
      intro b hb
      contradiction
  | cons a as ih =>
      rw [List.mapM_cons] at h
      obtain ⟨b', hb', h⟩ := bind_eq_ok_iff.mp h
      obtain ⟨bs', hbs', h⟩ := bind_eq_ok_iff.mp h
      obtain rfl := Except.ok.inj h
      intro b hb
      rcases List.mem_cons.mp hb with rfl | hb
      · use a, List.mem_cons_self, hb'
      · obtain ⟨a', ha', hfa'⟩ := ih hbs' b hb
        use a', List.mem_cons_of_mem a ha', hfa'

/-- The results of a list of computations are known if the result of each one is. -/
theorem eq_map_of_mapM {f : α → Except ε β} {g : α → β} (hf : ∀ {a b}, f a = .ok b → b = g a)
    {as : List α} {bs : List β} (h : as.mapM f = .ok bs) :
  bs = as.map g
  := by
  induction as generalizing bs with
  | nil =>
      obtain rfl := Except.ok.inj h
      rfl
  | cons a as ih =>
      rw [List.mapM_cons] at h
      obtain ⟨b, hb, h⟩ := bind_eq_ok_iff.mp h
      obtain ⟨bs', hbs', h⟩ := bind_eq_ok_iff.mp h
      obtain rfl := Except.ok.inj h
      rw [List.map_cons, hf hb, ih hbs']

/-- A list of computations has results exactly if each of its members has one. -/
theorem exists_mapM_eq_ok_iff {f : α → Except ε β} {as : List α} :
  (∃ bs, as.mapM f = .ok bs) ↔ ∀ a ∈ as, ∃ b, f a = .ok b
  := by
  induction as with
  | nil => simp [pure, Except.pure]
  | cons a as ih =>
      rw [List.forall_mem_cons, ← ih, List.mapM_cons]
      constructor
      · rintro ⟨bs, h⟩
        obtain ⟨b, hb, h⟩ := bind_eq_ok_iff.mp h
        obtain ⟨bs', hbs', -⟩ := bind_eq_ok_iff.mp h
        exact ⟨⟨b, hb⟩, bs', hbs'⟩
      · rintro ⟨⟨b, hb⟩, bs, hbs⟩
        rw [hb, hbs]
        exact ⟨b :: bs, rfl⟩

/-- The result of a member is among the results of a list of computations. -/
theorem mem_of_mapM {f : α → Except ε β} {as : List α} {bs : List β} (h : as.mapM f = .ok bs)
    {a : α} {b : β} (ha : a ∈ as) (hb : f a = .ok b) :
  b ∈ bs
  := by
  induction as generalizing bs with
  | nil => contradiction
  | cons a' as ih =>
      rw [List.mapM_cons] at h
      obtain ⟨b', hb', h⟩ := bind_eq_ok_iff.mp h
      obtain ⟨bs', hbs', h⟩ := bind_eq_ok_iff.mp h
      obtain rfl := Except.ok.inj h
      rcases List.mem_cons.mp ha with rfl | ha
      · obtain rfl := Except.ok.inj (hb.symm.trans hb')
        exact List.mem_cons_self
      · exact List.mem_cons_of_mem b' (ih hbs' ha)

section Filter

variable {p : α → Except ε Bool} {test : α → Bool} (hp : ∀ {a b}, p a = .ok b → b = test a)
  {as kept out : List α}

include hp

theorem filterAuxM_eq_ok_iff :
  as.filterAuxM p kept = .ok out ↔
    (∀ a ∈ as, p a = .ok (test a)) ∧ out = (as.filter test).reverse ++ kept
  := by
  induction as generalizing kept with
  | nil =>
      rw [List.filterAuxM]
      simp [pure, Except.pure, eq_comm]
  | cons a as ih =>
      rw [List.filterAuxM, bind_eq_ok_iff]
      constructor
      · rintro ⟨b, hb, h⟩
        obtain rfl := hp hb
        obtain ⟨hrest, rfl⟩ := ih.mp h
        refine ⟨List.forall_mem_cons.mpr ⟨hb, hrest⟩, ?_⟩
        cases htest : test a with
        | false => simp [htest]
        | true => simp [htest]
      · rintro ⟨hall, rfl⟩
        obtain ⟨ha, hrest⟩ := List.forall_mem_cons.mp hall
        refine ⟨test a, ha, ih.mpr ⟨hrest, ?_⟩⟩
        cases htest : test a with
        | false => simp [htest]
        | true => simp [htest]

/-- A filter whose tests are all made keeps the members that pass. -/
theorem filterM_eq_ok_iff :
  as.filterM p = .ok out ↔ (∀ a ∈ as, p a = .ok (test a)) ∧ out = as.filter test
  := by
  rw [List.filterM, bind_eq_ok_iff]
  simp only [filterAuxM_eq_ok_iff hp, List.append_nil]
  constructor
  · rintro ⟨reversed, ⟨hall, rfl⟩, h⟩
    obtain rfl := Except.ok.inj h
    exact ⟨hall, List.reverse_reverse _⟩
  · rintro ⟨hall, rfl⟩
    refine ⟨_, ⟨hall, rfl⟩, ?_⟩
    rw [List.reverse_reverse]
    rfl

end Filter

end ContractInterface
