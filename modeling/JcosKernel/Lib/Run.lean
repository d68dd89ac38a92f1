import Mathlib.Data.List.Induction

/-!
# JcosKernel.Lib.Run

**Runs of a labelled transition relation.** A component is described by a step
relation `step : σ → ε → σ → Prop`; `Run step s es s'` says that the steps
labelled `es`, taken one after another from `s`, lead to `s'`.

An invariant of the state alone goes through `Run.invariant`, one that also speaks of the labels
taken so far through `Run.history`, and a relation between two states of one run
through `Run.between`. `Active` reads off the labels what has been opened and not been
closed since.
-/

namespace JcosKernel.Lib

variable {σ ε : Type*} {step : σ → ε → σ → Prop}

/-- The runs of `step`, extended at their end. -/
inductive Run (step : σ → ε → σ → Prop) : σ → List ε → σ → Prop
  | nil (s : σ) : Run step s [] s
  | snoc {s s' s'' : σ} {es : List ε} {e : ε} :
      Run step s es s' → step s' e s'' → Run step s (es ++ [e]) s''

namespace Run

variable {es fs : List ε} {P : σ → Prop} {s s' : σ} {e : ε}

theorem single (h : step s e s') : Run step s [e] s' :=
  snoc (nil s) h

theorem append {s s' s'' : σ} (h : Run step s es s') (g : Run step s' fs s'') :
    Run step s (es ++ fs) s'' := by
  induction g with
  | nil => simpa using h
  | snoc _ hstep ih =>
    rw [← List.append_assoc]
    exact snoc ih hstep

theorem eq_of_nil (h : Run step s [] s') : s' = s := by
  generalize hes : ([] : List ε) = es at h
  cases h with
  | nil => rfl
  | snoc _ _ => simp at hes

theorem last (h : Run step s (es ++ [e]) s') : ∃ m, Run step s es m ∧ step m e s' := by
  generalize hall : es ++ [e] = all at h
  cases h with
  | nil => simp at hall
  | snoc hrun hstep =>
    obtain ⟨rfl, he⟩ := List.append_inj' hall rfl
    cases he
    exact ⟨_, hrun, hstep⟩

/-- A run can be cut anywhere. -/
theorem split (h : Run step s (es ++ fs) s') : ∃ m, Run step s es m ∧ Run step m fs s' := by
  induction fs using List.reverseRecOn generalizing s' with
  | nil => exact ⟨s', by simpa using h, .nil s'⟩
  | append_singleton fs e ih =>
    rw [← List.append_assoc] at h
    obtain ⟨t, hrun, hstep⟩ := h.last
    obtain ⟨m, h1, h2⟩ := ih hrun
    exact ⟨m, h1, .snoc h2 hstep⟩

theorem head (h : Run step s (e :: es) s') : ∃ m, step s e m ∧ Run step m es s' := by
  obtain ⟨m, h1, h2⟩ := split (show Run step s ([e] ++ es) s' from h)
  obtain ⟨t, h0, hstep⟩ := last (show Run step s ([] ++ [e]) m from h1)
  obtain rfl := h0.eq_of_nil
  exact ⟨m, hstep, h2⟩

/-- A state property that every step keeps holds along every run. -/
theorem invariant (h : Run step s es s') (h0 : P s) (hstep : ∀ s e s', P s → step s e s' → P s') :
    P s' := by
  induction h with
  | nil => exact h0
  | snoc _ hs ih => exact hstep _ _ _ ih hs

/-- A property of the labels taken so far and of the state they led to. -/
theorem history {P : List ε → σ → Prop} (h : Run step s es s') (h0 : P [] s)
    (hstep : ∀ es s e s', P es s → step s e s' → P (es ++ [e]) s') : P es s' := by
  induction h with
  | nil => exact h0
  | snoc _ hs ih => exact hstep _ _ _ _ ih hs

/-- A reflexive, transitive relation that every step from a good state respects
relates the two ends of every run from a good state. -/
theorem between {R : σ → σ → Prop} (h : Run step s es s') (h0 : P s)
    (hP : ∀ s e s', P s → step s e s' → P s') (hrefl : ∀ s, R s s)
    (htrans : ∀ a b c, R a b → R b c → R a c) (hR : ∀ s e s', P s → step s e s' → R s s') :
    R s s' := by
  induction h with
  | nil => exact hrefl _
  | snoc hrun hs ih => exact htrans _ _ _ ih (hR _ _ _ (hrun.invariant h0 hP) hs)

end Run

section ExecAll

variable {κ : Type*} (f : κ → σ → ε × σ)

/-- Calls executed one after another, with their labels. -/
def execAll : List κ → σ → List ε × σ
  | [], s => ([], s)
  | c :: cs, s =>
    let r := f c s
    let q := execAll cs r.2
    (r.1 :: q.1, q.2)

variable {f} {cs : List κ} {s : σ}

theorem Run.of_execAll {P : σ → Prop} (hs : P s)
    (h : ∀ c ∈ cs, ∀ s, P s → step s (f c s).1 (f c s).2 ∧ P (f c s).2) :
    Run step s (execAll f cs s).1 (execAll f cs s).2 := by
  induction cs generalizing s with
  | nil => exact .nil s
  | cons c cs ih =>
    obtain ⟨hstep, hP⟩ := h c List.mem_cons_self s hs
    exact (Run.single hstep).append (ih hP fun c hc => h c (List.mem_cons_of_mem _ hc))

theorem forall_mem_execAll {Q : ε → Prop} (h : ∀ c ∈ cs, ∀ s, Q (f c s).1) :
    ∀ e ∈ (execAll f cs s).1, Q e := by
  induction cs generalizing s with
  | nil => exact fun e he => nomatch he
  | cons c cs ih =>
    obtain ⟨hc, hcs⟩ := List.forall_mem_cons.mp h
    exact List.forall_mem_cons.mpr ⟨hc s, ih hcs⟩

variable (g : κ → σ → Option (ε × σ))

/-- The same with calls that may be refused. -/
def execSome : List κ → σ → Option (List ε × σ)
  | [], s => some ([], s)
  | c :: cs, s => (g c s).bind fun r => (execSome cs r.2).map fun q => (r.1 :: q.1, q.2)

variable {g} {s' : σ} {es : List ε}

theorem Run.of_execSome (h : ∀ c ∈ cs, ∀ s e s', g c s = some (e, s') → step s e s')
    (hr : execSome g cs s = some (es, s')) : Run step s es s' := by
  induction cs generalizing s es with
  | nil =>
    obtain ⟨rfl, rfl⟩ := Prod.mk.inj (Option.some.inj hr)
    exact .nil s
  | cons c cs ih =>
    obtain ⟨⟨e, mid⟩, hstep, hrest⟩ := Option.bind_eq_some_iff.mp hr
    obtain ⟨q, hq, heq⟩ := Option.map_eq_some_iff.mp hrest
    obtain ⟨rfl, rfl⟩ := Prod.mk.inj heq
    exact (Run.single (h c List.mem_cons_self s e mid hstep)).append
      (ih (fun c hc => h c (List.mem_cons_of_mem _ hc)) hq)

end ExecAll

/-! ### Logs of two parties -/

theorem getElem?_append_of_some {l m : List ε} {k : Nat} {a : ε} (h : l[k]? = some a) :
    (l ++ m)[k]? = some a :=
  (List.getElem?_append_left (List.getElem?_eq_some_iff.mp h).1).trans h

/-- One log follows another, and goes on with the entry that is due. -/
theorem prefix_concat {l m : List ε} {a : ε} (h : l.IsPrefix m) (ha : m[l.length]? = some a) :
    (l ++ [a]).IsPrefix m := by
  obtain ⟨t, rfl⟩ := h
  cases t with
  | nil => simp at ha
  | cons b t =>
    obtain rfl : b = a := by simpa using ha
    exact ⟨t, by simp⟩

/-! ### Labels that carry an identity -/

/-- When no two labels carry the same identity, a label with an identity has one place in
the sequence. -/
theorem place_unique {ι : Type*} {f : ε → Option ι} {es es' fs fs' : List ε} {e e' : ε} {i : ι}
    (hnodup : ((es ++ e :: fs).filterMap f).Nodup) (he : f e = some i) (he' : f e' = some i)
    (h : es ++ e :: fs = es' ++ e' :: fs') : es = es' ∧ e = e' ∧ fs = fs' := by
  induction es generalizing es' with
  | nil =>
    cases es' with
    | nil =>
      obtain ⟨rfl, rfl⟩ := List.cons.inj h
      exact ⟨rfl, rfl, rfl⟩
    | cons d es' =>
      obtain ⟨rfl, rfl⟩ := List.cons.inj h
      simp [he, he'] at hnodup
  | cons d es ih =>
    cases es' with
    | nil =>
      obtain ⟨rfl, rfl⟩ := List.cons.inj h
      simp [he, he'] at hnodup
    | cons d' es' =>
      obtain ⟨rfl, htail⟩ := List.cons.inj h
      have hsub : ((es ++ e :: fs).filterMap f).Sublist ((d :: es ++ e :: fs).filterMap f) :=
        (List.sublist_cons_self d _).filterMap f
      obtain ⟨rfl, rfl, rfl⟩ := ih (hnodup.sublist hsub) htail
      exact ⟨rfl, rfl, rfl⟩

/-! ### What is open after a sequence of labels -/

section Active

variable {γ : Type*} {opens closes : ε → γ → Prop} {g : γ}

/-- Some label opened `g`, and none after it closed `g`. -/
def Active (opens closes : ε → γ → Prop) (es : List ε) (g : γ) : Prop :=
  ∃ es₁ e es₂, es = es₁ ++ e :: es₂ ∧ opens e g ∧ ∀ d ∈ es₂, ¬ closes d g

theorem not_active_nil : ¬ Active opens closes [] g := by
  rintro ⟨es1, e, es2, h, -⟩
  simp at h

theorem active_snoc :
    Active opens closes (es ++ [e]) g ↔ opens e g ∨ Active opens closes es g ∧ ¬ closes e g := by
  constructor
  · rintro ⟨es1, d, es2, h, hopen, hclose⟩
    rcases List.eq_nil_or_concat es2 with rfl | ⟨es3, f, rfl⟩
    · obtain ⟨-, rfl⟩ := List.append_singleton_inj.mp h
      exact .inl hopen
    · rw [List.concat_eq_append, ← List.cons_append, ← List.append_assoc] at h
      obtain ⟨rfl, rfl⟩ := List.append_singleton_inj.mp h
      simp only [List.concat_eq_append, List.mem_append, List.mem_singleton] at hclose
      exact .inr ⟨⟨es1, d, es3, rfl, hopen, fun x hx => hclose x (.inl hx)⟩,
        hclose _ (.inr rfl)⟩
  · rintro (hopen | ⟨⟨es1, d, es2, rfl, hopen, hclose⟩, he⟩)
    · exact ⟨es, e, [], rfl, hopen, fun _ hx => absurd hx List.not_mem_nil⟩
    · exact ⟨es1, d, es2 ++ [e], by simp, hopen,
        List.forall_mem_append.mpr ⟨hclose, List.forall_mem_singleton.mpr he⟩⟩

end Active

end JcosKernel.Lib
