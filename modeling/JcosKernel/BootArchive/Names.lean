import JcosKernel.BootArchive.Read
import JcosKernel.Tar.Mount

/-!
# JcosKernel.BootArchive.Names

What `normalize_path` makes of a path.

While it reads, its output is the components it has completed, a slash after each, and then the
component it is in (`render`). A slash at the very start of what is left after `./` is kept, so the
result is the components with slashes between them, and before them too in this one case. The tree
reads the same components in a path, but for those that are `.`.
-/

namespace JcosKernel

/-- Components with slashes between them. -/
def joinSlash : List (List UInt8) → List UInt8
  | [] => []
  | [c] => c
  | c :: cs => c ++ slash :: joinSlash cs

theorem joinSlash_snoc (ds : List (List UInt8)) (c : List UInt8) :
    joinSlash (ds ++ [c]) = ds.flatMap (· ++ [slash]) ++ c := by
  induction ds with
  | nil => rfl
  | cons d ds ih =>
    have hne : ∃ x l, ds ++ [c] = x :: l := List.exists_cons_of_ne_nil (by simp)
    obtain ⟨x, l, hcons⟩ := hne
    rw [List.cons_append, hcons, joinSlash, ← hcons, ih]
    · simp
    · simp

theorem components_joinSlash {cs : List (List UInt8)} (h : ∀ c ∈ cs, c ≠ [] ∧ slash ∉ c) :
    components (joinSlash cs) = cs := by
  induction cs with
  | nil => rfl
  | cons c cs ih =>
    obtain ⟨hne, hslash⟩ := h c List.mem_cons_self
    have ih := ih fun d hd => h d (List.mem_cons_of_mem _ hd)
    rcases cs with _ | ⟨d, cs⟩
    · exact components_singleton hne hslash
    · rw [joinSlash, components_append hne hslash (.inr rfl), components_slash, ih]
      simp

theorem joinSlash_components (path : List UInt8) : components (joinSlash (components path)) = components path :=
  components_joinSlash fun _ hc => ⟨(mem_components hc).1, (mem_components hc).2.1⟩

theorem head?_joinSlash {cs : List (List UInt8)} (h : ∀ c ∈ cs, c ≠ [] ∧ slash ∉ c) :
    (joinSlash cs).head? ≠ some slash := by
  fun_cases joinSlash cs with
  | case1 => simp
  | case2 c => exact fun heq => (h c (by simp)).2 (List.mem_of_mem_head? heq)
  | case3 c cs _ =>
    obtain ⟨hne, hslash⟩ := h c (by simp)
    rw [List.head?_append_of_ne_nil _ hne]
    exact fun heq => hslash (List.mem_of_mem_head? heq)

/-- The names the tree reads in a path. -/
def namesOf (path : List UInt8) : List (List UInt8) := (components path).filter (· ≠ dot)

theorem components_dotSlash (l : List UInt8) : components (46 :: 47 :: l) = dot :: components l := by
  have h : components (dot ++ slash :: l) = dot :: components (slash :: l) :=
    components_append (by decide) (by decide) (.inr rfl)
  exact h

theorem namesOf_stripDotSlash (l : List UInt8) : namesOf (stripDotSlash l) = namesOf l := by
  fun_induction stripDotSlash l with
  | case1 source ih => rw [ih, namesOf, namesOf, components_dotSlash, List.filter_cons_of_neg (by simp)]
  | case2 => rfl

/-- What the spellings of one path have in common: its components after the leading `.`s. -/
def spelled (path : List UInt8) : List (List UInt8) := (components path).dropWhile (· = dot)

theorem spelled_stripDotSlash (l : List UInt8) : spelled (stripDotSlash l) = spelled l := by
  fun_induction stripDotSlash l with
  | case1 source ih => rw [ih, spelled, spelled, components_dotSlash, List.dropWhile_cons_of_pos (by simp)]
  | case2 => rfl

theorem stripDotSlash_ne (l r : List UInt8) : stripDotSlash l ≠ dot ++ slash :: r := by
  fun_induction stripDotSlash l with
  | case1 source ih => exact ih
  | case2 source hne => exact hne r

theorem head?_spelled (path : List UInt8) : (spelled path).head? ≠ some dot := fun heq => by
  have hnot := List.head?_dropWhile_not (· = dot) (components path)
  rw [← spelled, heq] at hnot
  simp at hnot

theorem namesOf_dropWhile (l : List UInt8) : namesOf (l.dropWhile (· == slash)) = namesOf l := by
  rw [namesOf, components_dropWhile, namesOf]

theorem components_rdropWhile (l : List UInt8) : components (l.rdropWhile (· == slash)) = components l := by
  induction l using List.reverseRecOn with
  | nil => rfl
  | append_singleton l b ih =>
    by_cases hb : b = slash
    · subst hb
      rw [List.rdropWhile_concat_pos _ _ _ (by simp), ih, components_append_slash, components_nil,
        List.append_nil]
    · rw [List.rdropWhile_concat_neg _ _ _ (by simpa using hb)]

theorem TarEntry.names_eq_namesOf {bytes : List UInt8} {offset : Nat} {e : TarEntry}
    (h : HeaderAt bytes offset e) : e.names = namesOf e.name := by
  have hno : 0 ∉ normalisedName e.name := fun hzero => joinedName_no_nul h.name (mem_normalisedName hzero)
  rw [TarEntry.names, pathNames, TarEntry.normalised, cString_eq hno, normalisedName, components_rdropWhile]
  exact (namesOf_dropWhile _).trans (namesOf_stripDotSlash _)

namespace BootArchive

/-! ### The loop -/

/-- The output: completed components and the one being read. -/
def render (lead : List UInt8) (ds : List (List UInt8)) (cur : List UInt8) : List UInt8 :=
  lead ++ ds.flatMap (· ++ [slash]) ++ cur

variable {lead cur input out : List UInt8} {ds : List (List UInt8)} {capacity k : Nat}

theorem render_nil_append : render lead ds [] ++ cur = render lead ds cur := by
  simp [render]

theorem render_snoc : render lead ds cur ++ [slash] = render lead (ds ++ [cur]) [] := by
  simp [render]

theorem render_concat (c : UInt8) : render lead ds cur ++ [c] = render lead ds (cur ++ [c]) := by
  simp [render]

theorem drop_render : (render lead ds cur).drop (render lead ds []).length = cur := by
  rw [← @render_nil_append lead cur ds, List.drop_left]

theorem getLast?_render_of_ne_nil (hne : cur ≠ []) (hcur : slash ∉ cur) :
    (render lead ds cur).getLast? ≠ some slash := by
  rw [← render_nil_append, List.getLast?_append, List.getLast?_eq_getLast_of_ne_nil hne]
  exact fun heq => hcur (Option.some.inj heq ▸ List.getLast_mem hne)

theorem getLast?_render_nil (hlead : lead = [] ∨ lead = [slash]) (hne : render lead ds [] ≠ []) :
    (render lead ds []).getLast? = some slash := by
  induction ds using List.reverseRecOn with
  | nil =>
    rcases hlead with rfl | rfl
    · exact absurd rfl hne
    · rfl
  | append_singleton ds d _ =>
    rw [← render_snoc, List.getLast?_concat]

/-! One turn. -/

theorem normalizeLoop_skip (hlead : lead = [] ∨ lead = [slash]) (hne : render lead ds [] ≠ []) :
    normalizeLoop capacity (slash :: input) (render lead ds []) k =
      normalizeLoop capacity input (render lead ds []) k := by
  rw [normalizeLoop, if_pos rfl, if_pos (getLast?_render_nil hlead hne)]

theorem normalizeLoop_slash (hne : cur ≠ []) (hcur : slash ∉ cur) :
    normalizeLoop capacity (slash :: input) (render lead ds cur) (render lead ds []).length =
      if cur = dotDot then none
      else if capacity ≤ (render lead ds cur).length + 1 then none
      else normalizeLoop capacity input (render lead (ds ++ [cur]) []) (render lead (ds ++ [cur]) []).length := by
  rw [normalizeLoop, if_pos rfl, if_neg (getLast?_render_of_ne_nil hne hcur), pathComponentParent, drop_render,
    render_snoc]
  have hlen : (render lead ds cur).length + 1 = (render lead (ds ++ [cur]) []).length := by
    rw [← render_snoc, List.length_append, List.length_singleton]
  rw [hlen]
  simp only [beq_iff_eq]

theorem normalizeLoop_char {c : UInt8} (hc : c ≠ slash) :
    normalizeLoop capacity (c :: input) (render lead ds cur) k =
      if c < 32 ∨ 126 < c then none
      else if capacity ≤ (render lead ds cur).length + 1 then none
      else normalizeLoop capacity input (render lead ds (cur ++ [c])) k := by
  rw [normalizeLoop, if_neg hc, render_concat]

/-- The component being read, if it has begun. -/
def begun (cur : List UInt8) : List (List UInt8) := if cur = [] then [] else [cur]

theorem components_eq_begun (hcur : slash ∉ cur) : components cur = begun cur := by
  unfold begun
  split_ifs with hne
  · rw [hne, components_nil]
  · exact components_singleton hne hcur

/-- A component that may stand in a result. -/
def Kept (d : List UInt8) : Prop := d ≠ [] ∧ slash ∉ d ∧ d ≠ dotDot

/-- Printable ASCII. -/
def Printable (b : UInt8) : Prop := 32 ≤ b ∧ b ≤ 126

theorem printable_slash : Printable slash := ⟨by decide, by decide⟩

/-- The bytes that the loop stores: a slash after a slash is skipped. -/
def collapsed : Option UInt8 → List UInt8 → List UInt8
  | _, [] => []
  | last, b :: input =>
    if b = slash ∧ last = some slash then collapsed last input else b :: collapsed (some b) input

theorem length_collapsed_le (last : Option UInt8) : (collapsed last input).length ≤ input.length := by
  fun_induction collapsed last input <;> grind

/-- What the loop has when it ends. It accepts printable paths without `..` if what it stores fits. -/
theorem normalizeLoop_cases (capacity : Nat) (hlead : lead = [] ∨ lead = [slash])
    (hcur : slash ∉ cur) (hds : ∀ d ∈ ds, Kept d) (hstart : render lead ds cur = [] → input.head? ≠ some slash) :
    (∃ ds' cur', normalizeLoop capacity input (render lead ds cur) (render lead ds []).length =
        some (render lead ds' cur', (render lead ds' []).length) ∧ slash ∉ cur' ∧
      (∀ d ∈ ds', Kept d) ∧ ds' ++ begun cur' = ds ++ components (cur ++ input)) ∨
    normalizeLoop capacity input (render lead ds cur) (render lead ds []).length = none ∧
      ¬ ((∀ b ∈ input, Printable b) ∧ dotDot ∉ components (cur ++ input) ∧
        (render lead ds cur).length + (collapsed (render lead ds cur).getLast? input).length < capacity) := by
  induction input generalizing ds cur with
  | nil => exact .inl ⟨ds, cur, rfl, hcur, hds, by rw [List.append_nil, components_eq_begun hcur]⟩
  | cons c input ih =>
    simp only [List.forall_mem_cons, collapsed]
    by_cases hc : c = slash
    · subst hc
      by_cases hne : cur = []
      · subst hne
        -- a slash behind a slash is skipped, one behind a component ends it
        have hnonempty : render lead ds [] ≠ [] := fun heq => hstart heq rfl
        rw [normalizeLoop_skip hlead hnonempty, List.nil_append, if_pos ⟨rfl, getLast?_render_nil hlead hnonempty⟩]
        refine (ih hcur hds fun hnil => absurd hnil hnonempty).imp id fun ⟨hr, hno⟩ => ⟨hr, ?_⟩
        rintro ⟨⟨-, hprint⟩, hdots, hlen⟩
        exact hno ⟨hprint, hdots, hlen⟩
      · have hlen : (render lead (ds ++ [cur]) []).length = (render lead ds cur).length + 1 := by
          rw [← render_snoc, List.length_append, List.length_singleton]
        have hnonempty : render lead (ds ++ [cur]) [] ≠ [] := List.ne_nil_of_length_eq_add_one hlen
        rw [if_neg (by simp [getLast?_render_of_ne_nil hne hcur]), List.length_cons, normalizeLoop_slash hne hcur,
          components_append hne hcur (.inr rfl), components_slash,
          List.append_cons ds cur (components input), List.mem_cons, not_or]
        split_ifs with hdots hfull
        · exact .inr ⟨rfl, fun h => h.2.1.1 hdots.symm⟩
        · exact .inr ⟨rfl, fun h => by omega⟩
        · refine (ih (by simp) (by simpa [or_imp, forall_and] using ⟨hds, hne, hcur, hdots⟩)
            fun hnil => absurd hnil hnonempty).imp id fun ⟨hr, hno⟩ => ⟨hr, ?_⟩
          rintro ⟨⟨-, hprint⟩, ⟨-, hrest⟩, hfit⟩
          refine hno ⟨hprint, hrest, ?_⟩
          rw [hlen, ← render_snoc, List.getLast?_concat]
          omega
    · have hcur1 : slash ∉ cur ++ [c] := by
        rw [List.mem_append, List.mem_singleton, not_or]
        exact ⟨hcur, fun heq => hc heq.symm⟩
      have hlen : (render lead ds (cur ++ [c])).length = (render lead ds cur).length + 1 := by
        rw [← render_concat, List.length_append, List.length_singleton]
      rw [if_neg (by simp [hc]), List.length_cons, normalizeLoop_char hc, List.append_cons cur c input]
      split_ifs with hbad hfull
      · exact .inr ⟨rfl, fun h =>
          not_or.mpr ⟨UInt8.not_lt.mpr h.1.1.1, UInt8.not_lt.mpr h.1.1.2⟩ hbad⟩
      · exact .inr ⟨rfl, fun h => by omega⟩
      · refine (ih hcur1 hds fun hnil => by simp [render] at hnil).imp id fun ⟨hr, hno⟩ => ⟨hr, ?_⟩
        rintro ⟨⟨-, hprint⟩, hdots, hfit⟩
        refine hno ⟨hprint, hdots, ?_⟩
        rw [hlen, ← render_concat, List.getLast?_concat]
        omega

/-- The output is what is stored; it is printable and fits. -/
theorem normalizeLoop_bounded {read : List UInt8} {i : Nat} (hlen : read.length < capacity)
    (hprint : ∀ b ∈ read, Printable b) (h : normalizeLoop capacity input read i = some (out, k)) :
    out = read ++ collapsed read.getLast? input ∧ out.length < capacity ∧ ∀ b ∈ out, Printable b := by
  fun_induction normalizeLoop capacity input read i with
  | case1 =>
    cases h
    exact ⟨by simp [collapsed], hlen, hprint⟩
  | case2 input read _ hlast ih =>
    rw [collapsed, if_pos ⟨rfl, hlast⟩]
    exact ih hlen hprint h
  | case3 | case4 | case6 | case7 => cases h
  | case5 input read i hlast _ hroom ih =>
    have hout := ih (by simpa using hroom) (List.forall_mem_append.mpr ⟨hprint, by simpa using printable_slash⟩) h
    simpa [collapsed, hlast] using hout
  | case8 b input read i hne hb hroom ih =>
    have hout := ih (by simpa using hroom)
      (List.forall_mem_append.mpr ⟨hprint, by simpa [Printable] using hb⟩) h
    simpa [collapsed, hne] using hout

/-! ### The result -/

/-- Trailing slashes of the output are dropped. -/
theorem rdropWhile_render (hlead : lead = [] ∨ lead = [slash]) (hcur : slash ∉ cur) (hds : ∀ d ∈ ds, Kept d) :
    (render lead ds cur).rdropWhile (· == slash) =
      if ds ++ begun cur = [] then [] else lead ++ joinSlash (ds ++ begun cur) := by
  -- without a slash at the end nothing is dropped
  have hkeep : ∀ {ds d}, d ≠ [] → slash ∉ d →
      (render lead ds d).rdropWhile (· == slash) = lead ++ joinSlash (ds ++ [d]) := fun {ds d} hne hd => by
    have hlast : (render lead ds d).getLast? ≠ some slash := getLast?_render_of_ne_nil hne hd
    rw [joinSlash_snoc, ← List.append_assoc]
    refine List.rdropWhile_eq_self_iff.mpr fun hl hslash => hlast ?_
    rw [List.getLast?_eq_getLast_of_ne_nil hl]
    simpa using hslash
  by_cases hne : cur = []
  · subst hne
    rw [begun, if_pos rfl, List.append_nil]
    induction ds using List.reverseRecOn with
    | nil =>
      rcases hlead with rfl | rfl
      · rfl
      · decide
    | append_singleton ds d _ =>
      obtain ⟨hd, hslash, -⟩ := hds d (by simp)
      rw [if_neg (by simp), ← render_snoc, List.rdropWhile_concat_pos _ _ _ (by simp)]
      exact hkeep hd hslash
  · rw [begun, if_neg hne, if_neg (by simp)]
    exact hkeep hne hcur

/-- What is left of a path at the start of the loop. -/
def stripped (path : List UInt8) : List UInt8 := stripDotSlash (path.dropWhile (· == slash))

theorem stripped_suffix (path : List UInt8) : stripped path <:+ path :=
  (stripDotSlash_suffix _).trans (List.dropWhile_suffix _)

theorem namesOf_stripped (path : List UInt8) : namesOf (stripped path) = namesOf path := by
  rw [stripped, namesOf_stripDotSlash, namesOf_dropWhile]

/-- The slash that is kept. -/
def leadOf (path : List UInt8) : List UInt8 := if (stripped path).head? = some slash then [slash] else []

/-- The loop begins after that slash. -/
theorem normalizeLoop_start (path : List UInt8) (hcap : 1 < capacity) : ∃ input,
    normalizeLoop capacity (stripped path) [] 0 =
      normalizeLoop capacity input (render (leadOf path) [] []) (render (leadOf path) [] []).length ∧
    components input = components (stripped path) ∧
    (render (leadOf path) [] [] = [] → input.head? ≠ some slash) ∧
    (render (leadOf path) [] []).length + (collapsed (render (leadOf path) [] []).getLast? input).length =
      (collapsed none (stripped path)).length ∧
    ∀ b ∈ input, b ∈ stripped path := by
  rcases hp : stripped path with _ | ⟨c, input⟩
  · refine ⟨[], ?_, rfl, by simp, ?_, by simp⟩ <;> simp [leadOf, hp, render, collapsed]
  · by_cases hc : c = slash
    · subst hc
      have hlead : leadOf path = [slash] := by simp [leadOf, hp]
      refine ⟨input, ?_, (components_slash _).symm, ?_, ?_, fun b hb => List.mem_cons_of_mem _ hb⟩
      · rw [hlead, normalizeLoop, if_pos rfl, if_neg (by simp), if_neg (by decide),
          if_neg (by simpa using hcap)]
        rfl
      · simp [hlead, render]
      · simp [hlead, render, collapsed]
        omega
    · have hlead : leadOf path = [] := by simp [leadOf, hp, hc]
      refine ⟨c :: input, ?_, rfl, ?_, ?_, fun b hb => hb⟩
      · rw [hlead]
        rfl
      · exact fun _ => by simpa using hc
      · simp [hlead, render]

theorem leadOf_cases (path : List UInt8) : leadOf path = [] ∨ leadOf path = [slash] := by
  unfold leadOf
  split_ifs
  · exact .inr rfl
  · exact .inl rfl

variable {c path : List UInt8}

/-- **`normalize_path`**: the components, joined by slashes. -/
theorem normalizePath_cases (h : normalizePath path capacity = some c) :
    c = leadOf path ++ joinSlash (components (stripped path)) ∧ components (stripped path) ≠ [] ∧
      dotDot ∉ components (stripped path) := by
  rw [normalizePath] at h
  split_ifs at h with hcap
  obtain ⟨input, hloop, hcomp, hstart, -, -⟩ := normalizeLoop_start path (show 1 < capacity by omega)
  have hlead := leadOf_cases path
  rw [show stripDotSlash (path.dropWhile (· == slash)) = stripped path from rfl, hloop] at h
  rcases normalizeLoop_cases capacity hlead List.not_mem_nil (by simp) hstart with
    ⟨ds, cur, hr, hcur, hds, heq⟩ | ⟨hr, -⟩
  swap
  · rw [hr] at h
    cases h
  · rw [hr] at h
    rw [List.nil_append, List.nil_append, hcomp] at heq
    simp only [pathComponentParent, drop_render, rdropWhile_render hlead hcur hds, heq] at h
    by_cases hnil : components (stripped path) = []
    · simp [hnil] at h
    split_ifs at h with hdots
    cases h
    refine ⟨rfl, hnil, fun hmem => ?_⟩
    rw [← heq] at hmem
    rcases List.mem_append.mp hmem with hmem | hmem
    · exact (hds _ hmem).2.2 rfl
    · rw [begun] at hmem
      split_ifs at hmem with hne
      · cases hmem
      · rw [List.mem_singleton.mp hmem] at hdots
        simp at hdots

/-- Names are accepted if what is stored fits. -/
theorem normalizePath_eq (hlen : (collapsed none (stripped path)).length < capacity)
    (hprint : ∀ b ∈ path, Printable b)
    (hne : components (stripped path) ≠ []) (hdots : dotDot ∉ components (stripped path)) :
    normalizePath path capacity = some (leadOf path ++ joinSlash (components (stripped path))) := by
  have hcap : 1 < capacity := by
    obtain ⟨b, l, hp⟩ := List.exists_cons_of_ne_nil (l := stripped path) fun hnil => hne (hnil ▸ rfl)
    rw [hp] at hlen
    simp [collapsed] at hlen
    omega
  obtain ⟨input, hloop, hcomp, hstart, hlength, hsub⟩ := normalizeLoop_start path hcap
  have hlead := leadOf_cases path
  have hsuffix := stripped_suffix path
  obtain ⟨ds, cur, hr, hcur, hds, heq⟩ := (normalizeLoop_cases capacity hlead
    List.not_mem_nil (by simp) hstart).resolve_right fun h => h.2
      ⟨fun b hb => hprint b (hsuffix.subset (hsub b hb)), by rwa [List.nil_append, hcomp], by omega⟩
  rw [List.nil_append, List.nil_append, hcomp] at heq
  have hparent : cur ≠ dotDot := by
    rintro rfl
    refine hdots ?_
    rw [← heq]
    simp [begun, dotDot]
  have hjoin : leadOf path ++ joinSlash (components (stripped path)) ≠ [] := by
    intro hnil
    have hcomps := joinSlash_components (stripped path)
    rw [(List.append_eq_nil_iff.mp hnil).2] at hcomps
    exact hne hcomps.symm
  rw [normalizePath, if_neg (by omega), show stripDotSlash (path.dropWhile (· == slash)) = stripped path from rfl,
    hloop, hr]
  simp only [pathComponentParent, drop_render, rdropWhile_render hlead hcur hds, heq, if_neg hne, if_neg hjoin,
    beq_iff_eq, if_neg hparent]

/-- The bytes of a path are those of its components, and slashes. -/
theorem printable_of_components (h : ∀ d ∈ components path, ∀ b ∈ d, Printable b) :
    ∀ b ∈ path, Printable b := by
  induction path using path_induction with
  | done path hnil =>
    intro b hb
    have hall := List.dropWhile_eq_nil_iff.mp (components_eq_nil_iff.mp hnil) b hb
    exact (beq_iff_eq.mp hall) ▸ printable_slash
  | read path d rest hcons hp hne hslash ih =>
    rw [hcons] at h
    rw [← List.takeWhile_append_dropWhile (l := path), hp]
    refine List.forall_mem_append.mpr ⟨fun b hb => ?_, List.forall_mem_append.mpr
      ⟨h d List.mem_cons_self, ih fun e he => h e (List.mem_cons_of_mem _ he)⟩⟩
    have heq : b = slash := by simpa using List.mem_takeWhile_imp hb
    exact heq ▸ printable_slash

theorem spelled_stripped (path : List UInt8) : spelled (stripped path) = spelled path := by
  rw [stripped, spelled_stripDotSlash, spelled, components_dropWhile, spelled]

theorem dropWhile_slash {l : List UInt8} (h : l.head? ≠ some slash) : l.dropWhile (· == slash) = l := by
  rcases l with _ | ⟨b, l⟩
  · rfl
  · exact List.dropWhile_cons_of_neg (by simpa using h)

/-- A `.` that is left over is the whole path. -/
theorem components_stripped (hlead : leadOf path = []) (hne : components (stripped path) ≠ []) :
    components (stripped path) = if spelled path = [] then [dot] else spelled path := by
  have hhead : (stripped path).head? ≠ some slash := fun heq => by simp [leadOf, heq] at hlead
  obtain ⟨hnil, -⟩ | ⟨d, rest, hcons, hp, -, -, hrest, -⟩ := nextComponent_cases (stripped path)
  · exact absurd hnil hne
  rw [← spelled_stripped, spelled, hcons]
  by_cases hd : d = dot
  · rw [dropWhile_slash hhead, hd] at hp
    rcases hrest with rfl | hrest
    · simp [hd]
    · obtain ⟨r, rfl⟩ := List.head?_eq_some_iff.mp hrest
      exact absurd hp (stripDotSlash_ne _ r)
  · rw [List.dropWhile_cons_of_neg (by simpa using hd), if_neg (by simp)]

/-- A result without a slash before it and without `.`. -/
def Plain (c : List UInt8) : Prop := c.head? ≠ some slash ∧ dot ∉ components c

section

variable (h : normalizePath path capacity = some c)
include h

theorem components_normalizePath : components c = components (stripped path) := by
  obtain ⟨rfl, -, -⟩ := normalizePath_cases h
  have hcomps := joinSlash_components (stripped path)
  rcases leadOf_cases path with hlead | hlead <;> rw [hlead]
  · exact hcomps
  · rw [List.singleton_append, components_slash, hcomps]

/-- Paths with the same result have the same names. -/
theorem namesOf_normalizePath : namesOf path = namesOf c := by
  rw [← namesOf_stripped, namesOf, namesOf, components_normalizePath h]

theorem normalizePath_joined : c = leadOf path ++ joinSlash (components c) := by
  rw [components_normalizePath h]
  exact (normalizePath_cases h).1

/-- A plain result is decided by the names. -/
theorem normalizePath_plain (hplain : Plain c) : c = joinSlash (namesOf path) := by
  have hall : namesOf c = components c :=
    List.filter_eq_self.mpr fun d hd => by simpa using ne_of_mem_of_not_mem hd hplain.2
  have hc := normalizePath_joined h
  rw [namesOf_normalizePath h, hall]
  rcases leadOf_cases path with hlead | hlead
  · rwa [hlead] at hc
  · rw [hc, hlead] at hplain
    exact absurd rfl hplain.1

/-! What a result looks like. -/

theorem normalizePath_bounded : c.length ≤ (collapsed none (stripped path)).length ∧
    (collapsed none (stripped path)).length < capacity ∧ ∀ b ∈ c, Printable b := by
  rw [normalizePath] at h
  split_ifs at h with hcap
  rcases hr : normalizeLoop capacity (stripped path) [] 0 with _ | ⟨out, k⟩
  all_goals
    rw [stripped] at hr
    simp only [hr] at h
  · cases h
  · obtain ⟨rfl, hlen, hprint⟩ := normalizeLoop_bounded (by simp; omega) (by simp) hr
    split_ifs at h
    cases h
    have hpre := List.rdropWhile_prefix (p := (· == slash)) (l := collapsed none (stripped path))
    exact ⟨hpre.length_le, hlen, fun b hb => hprint b (hpre.subset hb)⟩

theorem kept_normalizePath {d : List UInt8} (hd : d ∈ components c) : Kept d := by
  obtain ⟨hne, hslash, -⟩ := mem_components hd
  rw [components_normalizePath h] at hd
  exact ⟨hne, hslash, fun heq => (normalizePath_cases h).2.2 (heq ▸ hd)⟩

theorem getLast?_normalizePath : c ≠ [] ∧ c.getLast? ≠ some slash := by
  have hne := (normalizePath_cases h).2.1
  rw [← components_normalizePath h] at hne
  obtain ⟨ds, d, hcs⟩ := (List.eq_nil_or_concat' _).resolve_left hne
  obtain ⟨hd, hslash, -⟩ := mem_components (hcs ▸ List.mem_append_right ds (List.mem_singleton_self d))
  rw [normalizePath_joined h, hcs, joinSlash_snoc, ← List.append_assoc]
  exact ⟨by simp [hd], getLast?_render_of_ne_nil hd hslash⟩

section

variable (hlead : leadOf path = [])
include hlead

theorem head?_normalizePath : c.head? ≠ some slash := by
  rw [normalizePath_joined h, hlead]
  exact head?_joinSlash fun d hd => ⟨(mem_components hd).1, (mem_components hd).2.1⟩

theorem stripped_normalizePath : stripped c = c := by
  rw [stripped, dropWhile_slash (head?_normalizePath h hlead)]
  unfold stripDotSlash
  split
  · -- a leading `.` would be the whole path
    have hdot := (components_normalizePath h).trans (components_stripped hlead (normalizePath_cases h).2.1)
    rw [components_dotSlash] at hdot
    split_ifs at hdot
    · have hjoin := normalizePath_joined h
      rw [hlead, components_dotSlash, hdot] at hjoin
      cases hjoin
    · exact absurd (congrArg List.head? hdot).symm (head?_spelled path)
  · rfl

/-- Another spelling has the same result, if it is not empty and fits. -/
theorem normalizePath_respelled {q : List UInt8} (hq : leadOf q = []) (hspelled : spelled q = spelled path) :
    normalizePath q capacity = some c ↔
      components (stripped q) ≠ [] ∧ (collapsed none (stripped q)).length < capacity := by
  refine ⟨fun hc => ⟨(normalizePath_cases hc).2.1, (normalizePath_bounded hc).2.1⟩, fun ⟨hne, hlen⟩ => ?_⟩
  have hsame : components (stripped q) = components c := by
    rw [components_normalizePath h, components_stripped hq hne,
      components_stripped hlead (normalizePath_cases h).2.1, hspelled]
  have hprint : ∀ d ∈ components q, ∀ b ∈ d, Printable b := by
    intro d hd b hb
    rw [← List.takeWhile_append_dropWhile (p := (· = dot)) (l := components q)] at hd
    rcases List.mem_append.mp hd with hd | hd
    · obtain rfl : d = dot := by simpa using List.mem_takeWhile_imp hd
      rw [List.mem_singleton.mp hb]
      exact ⟨by decide, by decide⟩
    · rw [← spelled, hspelled, ← spelled_stripped, spelled, ← components_normalizePath h] at hd
      have hmem := (List.dropWhile_sublist _).subset hd
      exact (normalizePath_bounded h).2.2 b ((mem_components hmem).2.2 b hb)
  rw [normalizePath_eq hlen (printable_of_components hprint) hne, hq, hsame, ← hlead, ← normalizePath_joined h]
  rw [hsame]
  exact fun hd => (kept_normalizePath h hd).2.2 rfl

theorem normalizePath_idem : normalizePath c capacity = some c := by
  have hstrip := stripped_normalizePath h hlead
  refine (normalizePath_respelled h hlead ?_ ?_).mpr ⟨?_, ?_⟩
  · rw [leadOf, hstrip, if_neg (head?_normalizePath h hlead)]
  · rw [spelled, components_normalizePath h, ← spelled, spelled_stripped]
  · rw [hstrip, components_normalizePath h]
    exact (normalizePath_cases h).2.1
  · obtain ⟨hle, hlt, -⟩ := normalizePath_bounded h
    rw [hstrip]
    exact ((length_collapsed_le none).trans hle).trans_lt hlt

end

end

/-- **Canonical results.** A result fits, is printable and joins its components by single slashes.
Just if no slash was kept before them, it is its own result, and any other spelling of the path in
which no slash is kept has this result or none; it has none only if it is empty or what the loop
stores of it, a slash at its end included, does not fit. -/
theorem normalizePath_canonical (h : normalizePath path capacity = some c) :
    (c.length < capacity ∧ c ≠ [] ∧ (∀ b ∈ c, Printable b) ∧ c.getLast? ≠ some slash ∧
      ∃ ds, c = leadOf path ++ joinSlash ds ∧ ∀ d ∈ ds, Kept d) ∧
    (leadOf path = [] ↔ c.head? ≠ some slash ∧ normalizePath c capacity = some c ∧
      ∀ q, leadOf q = [] → spelled q = spelled path →
        (∀ c', normalizePath q capacity = some c' → c' = c) ∧
        (normalizePath q capacity = some c ↔
          components (stripped q) ≠ [] ∧ (collapsed none (stripped q)).length < capacity)) := by
  obtain ⟨hle, hlt, hprint⟩ := normalizePath_bounded h
  obtain ⟨hne, hlast⟩ := getLast?_normalizePath h
  refine ⟨⟨hle.trans_lt hlt, hne, hprint, hlast, _, normalizePath_joined h, fun d => kept_normalizePath h⟩,
    fun hlead => ⟨head?_normalizePath h hlead, normalizePath_idem h hlead, fun q hq hspelled =>
      ⟨fun c' hc' => ?_, normalizePath_respelled h hlead hq hspelled⟩⟩, fun hplain => ?_⟩
  · rw [(normalizePath_cases hc').1, (normalizePath_cases h).1, hq, hlead,
      components_stripped hq (normalizePath_cases hc').2.1, components_stripped hlead (normalizePath_cases h).2.1,
      hspelled]
  · refine (leadOf_cases path).resolve_right fun hlead => hplain.1 ?_
    rw [normalizePath_joined h, hlead]
    rfl

/-- `./a//b/` and `/a/b`. -/
theorem normalizePath_canonical_ab :
    normalizePath [46, 47, 97, 47, 47, 98, 47] 256 = some [97, 47, 98] ∧
      normalizePath [47, 97, 47, 98] 256 = some [97, 47, 98] := by
  have hp : normalizePath [46, 47, 97, 47, 47, 98, 47] 256 = some [97, 47, 98] := by decide
  exact ⟨hp, (((normalizePath_canonical hp).2.mp (by decide)).2.2 [47, 97, 47, 98] (by decide)
    (by decide)).2.mpr (by decide)⟩

/-- A slash after `./` is kept: `.//a` becomes `/a`, whose result is `a`, which is also that of `./a`. -/
theorem normalizePath_keeps_slash :
    normalizePath [46, 47, 47, 97] 256 = some [47, 97] ∧ normalizePath [47, 97] 256 = some [97] ∧
      normalizePath [46, 47, 97] 256 = some [97] := by
  decide

end BootArchive

end JcosKernel
