import CardBattle.Change
import Mathlib.Tactic.Use

/-!
# Changes in sequence

A sequence of changes has a result exactly when each of them has one, and stops with the
fault of the first that stops.  `Change.Leads` relates the battles before and after a change
that has a result; what every change of a list keeps is kept by all of them.  `FailsOnly`
says how a computation can fail that has no result, and changes that agree step by step where
they lead agree as a whole.  Computations match where the results of the second are related
to those of the first, and concur where they also fail alike.
-/

namespace CardBattle

variable {ε α β : Type}

/-! ### Results and errors in sequence -/

theorem pure_eq_ok {a b : α} :
  (pure a : Except ε α) = .ok b ↔ a = b
  := Except.ok.injEq a b ▸ Iff.rfl

theorem bind_eq_ok {x : Except ε α} {f : α → Except ε β} {b : β} :
  x >>= f = .ok b ↔ ∃ a, x = .ok a ∧ f a = .ok b
  := by
  cases x with
  | error e => simp [bind, Except.bind]
  | ok a => simp [bind, Except.bind]

/-- A computation that has no result fails as `S` says. -/
def FailsOnly (S : ε → Prop) (x : Except ε α) : Prop :=
  ∀ e, x = .error e → S e

theorem failsOnly_ok {S : ε → Prop} (a : α) :
  FailsOnly S (.ok a)
  := by
  intro e h
  cases h

/-- A sequence fails as `S` says when its parts do. -/
theorem FailsOnly.bind {S : ε → Prop} {x : Except ε α} {f : α → Except ε β}
    (hx : FailsOnly S x) (hf : ∀ a, x = .ok a → FailsOnly S (f a)) :
  FailsOnly S (x >>= f)
  := by
  intro e h
  cases x with
  | error e' =>
    obtain rfl : e' = e := Except.error.inj h
    apply hx e' rfl
  | ok a => apply hf a rfl e h

/-- A sequence fails as the rest does where its first part has a result. -/
theorem failsOnly_bind_of_ok {S : ε → Prop} {x : Except ε α} {a : α} (hx : x = .ok a)
    {f : α → Except ε β} (hf : FailsOnly S (f a)) :
  FailsOnly S (x >>= f)
  := by
  rw [hx]
  apply hf

/-- A computation that does not fail. -/
abbrev FailsNever (x : Except ε α) : Prop :=
  FailsOnly (fun _ => False) x

theorem FailsNever.exists_ok {x : Except ε α} (h : FailsNever x) :
  ∃ a, x = .ok a
  := by
  cases x with
  | ok a => exact ⟨a, rfl⟩
  | error e => exact (h e rfl).elim

/-- Computations that have the same results and fail with the same error only are the same. -/
theorem eq_of_ok_iff {e : ε} {x y : Except ε α} (h : ∀ a, x = .ok a ↔ y = .ok a)
    (hx : FailsOnly (· = e) x) (hy : FailsOnly (· = e) y) :
  x = y
  := by
  cases hresult : x with
  | ok a => exact ((h a).mp hresult).symm
  | error e' =>
    cases hresult' : y with
    | ok a =>
      rw [(h a).mpr hresult'] at hresult
      cases hresult
    | error e'' => rw [hx e' hresult, hy e'' hresult']

/-- Two sequences of the same first part agree where their rests agree on its result. -/
theorem bind_congr_ok {x : Except ε α} {f f' : α → Except ε β}
    (h : ∀ a, x = .ok a → f' a = f a) :
  x >>= f' = x >>= f
  := by
  cases x with
  | error e => rfl
  | ok a => apply h a rfl

/-! ### Computations that match -/

/-- Where the first computation has a result, the second has one that it is related to. -/
def Matches (S : α → β → Prop) (x : Except ε α) (y : Except ε β) : Prop :=
  ∀ a, x = .ok a → ∃ b, y = .ok b ∧ S a b

theorem matches_ok {S : α → β → Prop} {a : α} {b : β} (h : S a b) :
  Matches S (.ok a : Except ε α) (.ok b)
  := by
  intro a' ha'
  obtain rfl := Except.ok.inj ha'
  exact ⟨b, rfl, h⟩

/-- Sequences match when their first parts do, and their rests do on related results. -/
theorem Matches.bind {γ δ : Type} {S : α → β → Prop} {T : γ → δ → Prop} {x : Except ε α}
    {y : Except ε β} {f : α → Except ε γ} {g : β → Except ε δ} (h : Matches S x y)
    (hrest : ∀ a b, S a b → Matches T (f a) (g b)) :
  Matches T (x >>= f) (y >>= g)
  := by
  intro c hc
  obtain ⟨a, ha, hc⟩ := bind_eq_ok.mp hc
  obtain ⟨b, hb, hab⟩ := h a ha
  obtain ⟨d, hd, hcd⟩ := hrest a b hab c hc
  exact ⟨d, bind_eq_ok.mpr ⟨b, hb, hd⟩, hcd⟩

/-- Sequences of the same first part match when their rests do on its result. -/
theorem matches_bind {γ δ : Type} {T : γ → δ → Prop} {x : Except ε α} {f : α → Except ε γ}
    {g : α → Except ε δ} (h : ∀ a, x = .ok a → Matches T (f a) (g a)) :
  Matches T (x >>= f) (x >>= g)
  := by
  intro c hc
  obtain ⟨a, ha, hc⟩ := bind_eq_ok.mp hc
  obtain ⟨d, hd, hcd⟩ := h a ha c hc
  exact ⟨d, bind_eq_ok.mpr ⟨a, ha, hd⟩, hcd⟩

/-! ### Computations that concur -/

/-- Both computations have results, which are related, or both fail with the same error. -/
inductive Concurs (S : α → β → Prop) : Except ε α → Except ε β → Prop
  | ok {a : α} {b : β} (h : S a b) : Concurs S (.ok a) (.ok b)
  | error (e : ε) : Concurs S (.error e) (.error e)

/-- Sequences concur when their first parts do, and their rests do on related results. -/
theorem Concurs.bind {γ δ : Type} {S : α → β → Prop} {T : γ → δ → Prop} {x : Except ε α}
    {y : Except ε β} {f : α → Except ε γ} {g : β → Except ε δ} (h : Concurs S x y)
    (hrest : ∀ a b, S a b → Concurs T (f a) (g b)) :
  Concurs T (x >>= f) (y >>= g)
  := by
  cases h with
  | ok h => apply hrest _ _ h
  | error e => exact .error e

/-- Sequences of the same first part concur when their rests do on its result. -/
theorem concurs_bind {γ δ : Type} {T : γ → δ → Prop} {x : Except ε α} {f : α → Except ε γ}
    {g : α → Except ε δ} (h : ∀ a, x = .ok a → Concurs T (f a) (g a)) :
  Concurs T (x >>= f) (x >>= g)
  := by
  cases x with
  | error e => exact .error e
  | ok a => apply h a rfl

theorem Concurs.mono {S T : α → β → Prop} {x : Except ε α} {y : Except ε β}
    (h : Concurs S x y) (hST : ∀ a b, x = .ok a → y = .ok b → S a b → T a b) :
  Concurs T x y
  := by
  cases h with
  | ok h => exact .ok (hST _ _ rfl rfl h)
  | error e => exact .error e

namespace Change

/-! ### Sequences regrouped -/

theorem andThen_done (c : Change) :
  c.andThen done = c
  := by
  funext b
  change (c b >>= fun result => pure (result.1, result.2 ++ {})) = c b
  simp only [Report.append_empty]
  exact bind_pure (c b)

theorem done_andThen (c : Change) :
  done.andThen c = c
  := by
  funext b
  change (c b >>= fun result => pure (result.1, {} ++ result.2)) = c b
  simp only [Report.empty_append]
  exact bind_pure (c b)

theorem andThen_assoc (first second third : Change) :
  (first.andThen second).andThen third = first.andThen (second.andThen third)
  := by
  funext b
  simp only [andThen, bind_assoc, pure_bind, Report.append_assoc]

/-- Where the first change has a result, the second goes on from it. -/
theorem andThen_of_ok {first : Change} {b m : Battle} {r : Report} (h : first b = .ok (m, r))
    (second : Change) :
  first.andThen second b = (second m).map fun result => (result.1, r ++ result.2)
  := by
  rw [andThen, h]
  rfl

theorem forEach_append (f : α → Change) (l l' : List α) :
  forEach f (l ++ l') = (forEach f l).andThen (forEach f l')
  := by
  induction l with
  | nil => exact (done_andThen _).symm
  | cons a rest ih => rw [List.cons_append, forEach, forEach, ih, andThen_assoc]

/-- The changes for lists one after another are those for all the lists put together. -/
theorem forEach_flatMap (f : β → Change) (g : α → List β) (l : List α) :
  forEach f (l.flatMap g) = forEach (fun a => forEach f (g a)) l
  := by
  induction l with
  | nil => rfl
  | cons a rest ih => rw [List.flatMap_cons, forEach_append, ih, forEach]

/-! ### What changes lead to -/

/-- A change has a result, and this is the battle it leads to. -/
def Leads (c : Change) (b b' : Battle) : Prop :=
  ∃ r, c b = .ok (b', r)

/-- A change leads to one battle only. -/
theorem Leads.unique {c : Change} {b b' b'' : Battle} (h : c.Leads b b') (h' : c.Leads b b'') :
  b' = b''
  := by
  obtain ⟨r, h⟩ := h
  obtain ⟨r', h'⟩ := h'
  exact (Prod.mk.inj (Except.ok.inj (h.symm.trans h'))).1

/-- A change whose result passes a test leads to a battle that does. -/
theorem exists_leads {c : Change} {b : Battle} {p : Battle → Bool}
    (h : (c b).toOption.any fun result => p result.1) :
  ∃ b', c.Leads b b' ∧ p b'
  := by
  cases hc : c b with
  | error fault =>
    rw [hc] at h
    cases h
  | ok result =>
    rw [hc] at h
    exact ⟨result.1, ⟨result.2, hc⟩, h⟩

theorem leads_done {b b' : Battle} :
  done.Leads b b' ↔ b' = b
  := by
  constructor
  · rintro ⟨r, h⟩
    cases h
    rfl
  · rintro rfl
    use {}
    rfl

theorem leads_report {r : Report} {b b' : Battle} :
  (report r).Leads b b' ↔ b' = b
  := by
  constructor
  · rintro ⟨s, h⟩
    cases h
    rfl
  · rintro rfl
    use r
    rfl

/-- One change after another leads where the second leads from the result of the first. -/
theorem leads_andThen {first second : Change} {b b' : Battle} :
  (first.andThen second).Leads b b' ↔ ∃ m, first.Leads b m ∧ second.Leads m b'
  := by
  simp only [Leads, andThen, bind_eq_ok, pure_eq_ok, Prod.exists, Prod.mk.injEq]
  constructor
  · rintro ⟨_, m, r, hm, _, s, hs, rfl, rfl⟩
    use m, ⟨r, hm⟩, s
  · rintro ⟨m, ⟨r, hm⟩, s, hs⟩
    use r ++ s, m, r, hm, b', s, hs

theorem leads_forEach_cons {f : α → Change} {a : α} {l : List α} {b b' : Battle} :
  (forEach f (a :: l)).Leads b b' ↔ ∃ m, (f a).Leads b m ∧ (forEach f l).Leads m b'
  := leads_andThen

/-- Each change of a list comes between those before it and those after it. -/
theorem forEach_leads_of_mem {f : α → Change} {a : α} {l : List α} (ha : a ∈ l) {b b' : Battle}
    (h : (forEach f l).Leads b b') :
  ∃ before after m m', (forEach f before).Leads b m ∧ (f a).Leads m m'
    ∧ (forEach f after).Leads m' b'
  := by
  induction l generalizing b with
  | nil => cases ha
  | cons c rest ih =>
    obtain ⟨m, hm, hrest⟩ := leads_forEach_cons.mp h
    rcases List.mem_cons.mp ha with rfl | ha
    · exact ⟨[], rest, b, m, leads_done.mpr rfl, hm, hrest⟩
    · obtain ⟨before, after, m₁, m₂, hbefore, ha, hafter⟩ := ih ha hrest
      exact ⟨c :: before, after, m₁, m₂, leads_forEach_cons.mpr ⟨m, hm, hbefore⟩, ha, hafter⟩

theorem forEach_map {β : Type} (g : β → α) (f : α → Change) (l : List β) :
  forEach f (l.map g) = forEach (fun a => f (g a)) l
  := by
  induction l with
  | nil => rfl
  | cons a rest ih => rw [List.map_cons, forEach, forEach, ih]

/-- A property that every change of a list keeps is kept by all of them in sequence. -/
theorem forEach_keeps {P : Battle → Prop} {f : α → Change} {l : List α}
    (h : ∀ a ∈ l, ∀ b b', P b → (f a).Leads b b' → P b') :
  ∀ {b b' : Battle}, P b → (forEach f l).Leads b b' → P b'
  := by
  induction l with
  | nil =>
    intro b b' hb hl
    rw [leads_done.mp hl]
    exact hb
  | cons a l ih =>
    intro b b' hb hl
    obtain ⟨m, hm, hl⟩ := leads_forEach_cons.mp hl
    apply ih _ (h a (by simp) b m hb hm) hl
    intro c hc
    apply h c (by simp [hc])

/-- What is accounted for each change of a list is accounted for all of them in sequence, if
accounts are added up where one change follows another. -/
theorem forEach_accounts {γ : Type} {R : List γ → Battle → Battle → Prop} {P : Battle → Prop}
    {f : α → Change} {account : α → List γ} {l : List α} (hnil : ∀ b, R [] b b)
    (happend : ∀ x y b m b', R x b m → R y m b' → R (x ++ y) b b')
    (hkeep : ∀ a ∈ l, ∀ b b', P b → (f a).Leads b b' → P b')
    (hf : ∀ a ∈ l, ∀ b b', P b → (f a).Leads b b' → R (account a) b b') :
  ∀ {b b' : Battle}, P b → (forEach f l).Leads b b' → R (l.flatMap account) b b'
  := by
  induction l with
  | nil =>
    intro b b' _ hl
    rw [leads_done.mp hl]
    apply hnil
  | cons a l ih =>
    intro b b' hb hl
    obtain ⟨m, hm, hl⟩ := leads_forEach_cons.mp hl
    rw [List.flatMap_cons]
    apply happend _ _ b m b' (hf a List.mem_cons_self b m hb hm)
    apply ih _ _ (hkeep a List.mem_cons_self b m hb hm) hl
    · intro c hc
      apply hkeep c (List.mem_cons_of_mem a hc)
    · intro c hc
      apply hf c (List.mem_cons_of_mem a hc)

/-! ### How changes fail -/

variable {S : Fault → Prop}

theorem failsOnly_report (r : Report) (b : Battle) :
  FailsOnly S (report r b)
  := failsOnly_ok _

theorem failsOnly_andThen {first second : Change} {b : Battle} (hfirst : FailsOnly S (first b))
    (hsecond : ∀ m, first.Leads b m → FailsOnly S (second m)) :
  FailsOnly S ((first.andThen second) b)
  := by
  apply hfirst.bind
  rintro ⟨m, r⟩ hm
  apply (hsecond m ⟨r, hm⟩).bind
  rintro ⟨b', s⟩ -
  apply failsOnly_ok

/-- Changes in sequence fail as `S` says when each does where a property holds that all of
them keep. -/
theorem failsOnly_forEach {P : Battle → Prop} {f : α → Change} {l : List α}
    (hf : ∀ a ∈ l, ∀ b, P b → FailsOnly S (f a b))
    (hkeep : ∀ a ∈ l, ∀ b b', P b → (f a).Leads b b' → P b') :
  ∀ {b : Battle}, P b → FailsOnly S (forEach f l b)
  := by
  induction l with
  | nil =>
    intro b _
    apply failsOnly_ok
  | cons a l ih =>
    intro b hb
    apply failsOnly_andThen (hf a (by simp) b hb)
    intro m hm
    apply ih
    · intro c hc
      apply hf c (by simp [hc])
    · intro c hc
      apply hkeep c (by simp [hc])
    · apply hkeep a (by simp) b m hb hm

/-! ### Changes that agree -/

/-- Two pairs of changes agree where the first of them do and the second of them do on
what the first lead to. -/
theorem andThen_congr {first first' second second' : Change} {b : Battle}
    (hfirst : first' b = first b) (hsecond : ∀ m, first.Leads b m → second' m = second m) :
  (first'.andThen second') b = (first.andThen second) b
  := by
  rw [andThen, andThen, hfirst]
  apply bind_congr_ok
  rintro ⟨m, r⟩ hm
  dsimp only
  rw [hsecond m ⟨r, hm⟩]

/-- Changes in sequence agree when they do one by one where a property holds that all of
them keep. -/
theorem forEach_congr {P : Battle → Prop} {f f' : α → Change} {l : List α}
    (hf : ∀ a ∈ l, ∀ b, P b → f' a b = f a b)
    (hkeep : ∀ a ∈ l, ∀ b b', P b → (f a).Leads b b' → P b') :
  ∀ {b : Battle}, P b → forEach f' l b = forEach f l b
  := by
  induction l with
  | nil =>
    intro b _
    rfl
  | cons a l ih =>
    intro b hb
    apply andThen_congr (hf a (by simp) b hb)
    intro m hm
    apply ih
    · intro c hc
      apply hf c (by simp [hc])
    · intro c hc
      apply hkeep c (by simp [hc])
    · apply hkeep a (by simp) b m hb hm

end Change

end CardBattle
