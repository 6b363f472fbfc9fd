import Mathlib.Data.List.Forall2
import Mathlib.Data.List.TakeWhile
import TrustRegion.Solver.Settings

/-! The texts that option readers accept: the spellings of their keywords, which differ from these in
the case of ASCII letters and in white space around them. -/
namespace TrustRegion.Text

section Characters

/-- A character with the Unicode property White_Space, by its code point. -/
def IsWhiteSpace (c : Char) : Prop :=
  c.toNat ∈ [0x09, 0x0A, 0x0B, 0x0C, 0x0D, 0x20, 0x85, 0xA0, 0x1680, 0x2000, 0x2001, 0x2002, 0x2003,
    0x2004, 0x2005, 0x2006, 0x2007, 0x2008, 0x2009, 0x200A, 0x2028, 0x2029, 0x202F, 0x205F, 0x3000]

def IsCapital (c : Char) : Prop := 0x41 ≤ c.toNat ∧ c.toNat ≤ 0x5A

/-- Characters that are equal up to the case of ASCII letters. -/
inductive SameLetter : Char → Char → Prop where
  | refl (c : Char) : SameLetter c c
  | lower {a b : Char} (capital : IsCapital a) (h : b.toNat = a.toNat + 0x20) : SameLetter a b
  | upper {a b : Char} (capital : IsCapital b) (h : a.toNat = b.toNat + 0x20) : SameLetter a b

variable {a b c : Char}

theorem isBlank_iff : isBlank c = true ↔ IsWhiteSpace c := by
  simp only [isBlank, IsWhiteSpace, Bool.or_eq_true, decide_eq_true_eq, beq_iff_eq, List.mem_cons,
    List.not_mem_nil, or_false]
  omega

theorem toNat_toLower (h : IsCapital c) : c.toLower.toNat = c.toNat + 0x20 := by
  have range : c.val ≥ 'A'.val ∧ c.val ≤ 'Z'.val := h
  have small : c.val.toNat ≤ 0x5A := h.2
  have lowered : c.toLower = _ := dif_pos range
  rw [lowered]
  show (c.val + ('a'.val - 'A'.val)).toNat = c.val.toNat + 0x20
  rw [UInt32.toNat_add]
  show (c.val.toNat + 0x20) % 2 ^ 32 = c.val.toNat + 0x20
  exact Nat.mod_eq_of_lt (by omega)

theorem toLower_of_not_isCapital (h : ¬ IsCapital c) : c.toLower = c := dif_neg h

theorem not_isCapital_toLower (c : Char) : ¬ IsCapital c.toLower := by
  by_cases h : IsCapital c
  · have small := toNat_toLower h
    unfold IsCapital at *
    omega
  · rwa [toLower_of_not_isCapital h]

theorem sameLetter_toLower (c : Char) : SameLetter c c.toLower := by
  by_cases h : IsCapital c
  · exact .lower h (toNat_toLower h)
  · rw [toLower_of_not_isCapital h]
    exact .refl c

theorem toLower_eq_of_isCapital (h : IsCapital a) (hb : b.toNat = a.toNat + 0x20) :
    a.toLower = b.toLower := by
  have small : ¬ IsCapital b := by
    unfold IsCapital at *
    omega
  rw [toLower_of_not_isCapital small]
  exact Char.toNat_inj.mp ((toNat_toLower h).trans hb.symm)

theorem SameLetter.toLower_eq (h : SameLetter a b) : a.toLower = b.toLower := by
  cases h with
  | refl => rfl
  | lower capital h => exact toLower_eq_of_isCapital capital h
  | upper capital h => exact (toLower_eq_of_isCapital capital h).symm

theorem isBlank_toLower (c : Char) : isBlank c.toLower = isBlank c := by
  by_cases h : IsCapital c
  · have black {d : Char} (hd : 0x41 ≤ d.toNat ∧ d.toNat ≤ 0x7A) : isBlank d = false := by
      rw [Bool.eq_false_iff, ne_eq, isBlank_iff]
      simp only [IsWhiteSpace, List.mem_cons, List.not_mem_nil, or_false]
      omega
    have small := toNat_toLower h
    unfold IsCapital at h
    rw [black (by omega), black (by omega)]
  · rw [toLower_of_not_isCapital h]

end Characters

section Trim

variable {s before core after : List Char}

/-- What is left of a text without the white space at both ends of it. -/
def Surrounds (s core : List Char) : Prop :=
  ∃ before after, s = before ++ core ++ after ∧ ∀ c ∈ before ++ after, IsWhiteSpace c

theorem Surrounds.refl (s : List Char) : Surrounds s s :=
  ⟨[], [], by simp, by simp⟩

/-- A text that neither begins nor ends with white space. -/
def Bare (core : List Char) : Prop :=
  ∀ c, core.head? = some c ∨ core.getLast? = some c → ¬ IsWhiteSpace c

theorem trim_append_left (h : ∀ c ∈ before, isBlank c = true) : trim (before ++ s) = trim s := by
  rw [trim, List.dropWhile_append_of_pos h, trim]

theorem trim_append_right (h : ∀ c ∈ after, isBlank c = true) : trim (s ++ after) = trim s := by
  have blank : after.dropWhile isBlank = [] := by
    rw [List.dropWhile_eq_nil_iff]
    exact h
  have reversed : ∀ c ∈ after.reverse, isBlank c = true :=
    fun c hc => h c (List.mem_reverse.mp hc)
  unfold trim
  rw [List.dropWhile_append]
  split
  · next empty => rw [blank, List.isEmpty_iff.mp empty]
  · rw [List.reverse_append, List.dropWhile_append_of_pos reversed]

theorem trim_of_surrounds (h : Surrounds s core) : trim s = trim core := by
  obtain ⟨before, after, rfl, white⟩ := h
  obtain ⟨hbefore, hafter⟩ := List.forall_mem_append.mp white
  rw [trim_append_right fun c hc => isBlank_iff.mpr (hafter c hc),
    trim_append_left fun c hc => isBlank_iff.mpr (hbefore c hc)]

theorem surrounds_trim (s : List Char) : Surrounds s (trim s) := by
  refine ⟨s.takeWhile isBlank, ((s.dropWhile isBlank).reverse.takeWhile isBlank).reverse, ?_, ?_⟩
  · rw [trim, List.append_assoc, ← List.reverse_append, List.takeWhile_append_dropWhile,
      List.reverse_reverse, List.takeWhile_append_dropWhile]
  · intro c hc
    rw [List.mem_append, List.mem_reverse] at hc
    exact isBlank_iff.mp (hc.elim List.mem_takeWhile_imp List.mem_takeWhile_imp)

theorem not_isWhiteSpace_of_head?_dropWhile {c : Char}
    (h : (s.dropWhile isBlank).head? = some c) : ¬ IsWhiteSpace c := by
  have stops := List.head?_dropWhile_not isBlank s
  rw [h] at stops
  rw [← isBlank_iff, stops]
  exact Bool.false_ne_true

theorem bare_trim (s : List Char) : Bare (trim s) := by
  intro c hc
  obtain first | last := hc
  · refine not_isWhiteSpace_of_head?_dropWhile (s := s) ?_
    rw [← List.reverse_reverse (s.dropWhile isBlank),
      ← List.takeWhile_append_dropWhile (p := isBlank) (l := (s.dropWhile isBlank).reverse),
      List.reverse_append, List.head?_append]
    exact congrArg (Option.or · _) first
  · rw [trim, List.getLast?_reverse] at last
    exact not_isWhiteSpace_of_head?_dropWhile last

/-- It makes no difference whether white space is dropped before or after letters are lowered. -/
theorem map_toLower_trim (s : List Char) :
    (trim s).map Char.toLower = trim (s.map Char.toLower) := by
  have blank : isBlank ∘ Char.toLower = isBlank := funext isBlank_toLower
  unfold trim
  rw [List.dropWhile_map, blank, ← List.map_reverse, List.dropWhile_map, blank, List.map_reverse]

end Trim

section Spelling

/-- The texts that spell a word: it stands between white space, its letters in either case. -/
def Spells (word s : String) : Prop :=
  ∃ core, Surrounds s.toList core ∧ List.Forall₂ SameLetter core word.toList

/-- Texts that differ in the case of ASCII letters and in the white space around them. -/
def Respells (s s' : String) : Prop :=
  ∃ core core', Surrounds s.toList core ∧ Surrounds s'.toList core' ∧
    List.Forall₂ SameLetter core core'

/-- What is shown of a text: without white space around it, and with no capital letter. -/
def Shows (s shown : String) : Prop :=
  ∃ core, Surrounds s.toList core ∧ Bare core ∧ List.Forall₂ SameLetter core shown.toList ∧
    ∀ c ∈ shown.toList, ¬ IsCapital c

variable {s s' word : String}

theorem map_toLower_of_forall₂ {x y : List Char} (h : List.Forall₂ SameLetter x y) :
    x.map Char.toLower = y.map Char.toLower := by
  induction h with
  | nil => rfl
  | cons hc _ ih => rw [List.map_cons, List.map_cons, hc.toLower_eq, ih]

theorem forall₂_map_toLower (x : List Char) : List.Forall₂ SameLetter x (x.map Char.toLower) :=
  List.forall₂_map_right_iff.mpr (List.forall₂_same.mpr fun c _ => sameLetter_toLower c)

theorem normalize_of_surrounds {core : List Char} (h : Surrounds s.toList core) :
    normalize s = String.ofList (trim (core.map Char.toLower)) := by
  rw [normalize, trim_of_surrounds h, map_toLower_trim]

theorem normalize_eq_of_respells (h : Respells s s') : normalize s = normalize s' := by
  obtain ⟨core, core', hs, hs', same⟩ := h
  rw [normalize_of_surrounds hs, normalize_of_surrounds hs', map_toLower_of_forall₂ same]

theorem shows_normalize (s : String) : Shows s (normalize s) := by
  refine ⟨trim s.toList, surrounds_trim _, bare_trim _, ?_, ?_⟩
  · rw [normalize, String.toList_ofList]
    exact forall₂_map_toLower _
  · rw [normalize, String.toList_ofList]
    intro c hc
    obtain ⟨d, -, rfl⟩ := List.mem_map.mp hc
    exact not_isCapital_toLower d

/-- A word in normal form is that of exactly the texts that spell it. -/
theorem normalize_eq_iff (regular : normalize word = word) : normalize s = word ↔ Spells word s := by
  constructor
  · rintro rfl
    obtain ⟨core, surrounds, -, same, -⟩ := shows_normalize s
    exact ⟨core, surrounds, same⟩
  · rintro ⟨core, surrounds, same⟩
    rw [← regular]
    exact normalize_eq_of_respells ⟨core, word.toList, surrounds, .refl _, same⟩

theorem spells_self (word : String) : Spells word word :=
  ⟨word.toList, .refl _, List.forall₂_same.mpr fun c _ => .refl c⟩

end Spelling

section Reading

variable {α : Type} {parameter expectation : String} {choices : List (String × α)}
  {keyword : α → String} {s s' : String}

theorem readKeyword_of_respells (h : Respells s s') :
    readKeyword parameter expectation choices s = readKeyword parameter expectation choices s' := by
  rw [readKeyword, readKeyword, normalize_eq_of_respells h]

theorem readKeyword_eq_ok_iff {value : α} :
    readKeyword parameter expectation choices s = .ok value ↔
      choices.lookup (normalize s) = some value := by
  unfold readKeyword
  split
  · next named => rw [named, Except.ok.injEq, Option.some.injEq]
  · next unnamed => simp [unnamed]

theorem eq_of_readKeyword_error {failure : Failure}
    (h : readKeyword parameter expectation choices s = .error failure) :
    failure = .invalidArgument parameter (normalize s) expectation := by
  unfold readKeyword at h
  split at h
  · cases h
  · cases h
    rfl

theorem lookup_keyword (injective : keyword.Injective) (all : List α) (text : String) (value : α) :
    (all.map fun option => (keyword option, option)).lookup text = some value ↔
      value ∈ all ∧ keyword value = text := by
  induction all with
  | nil => simp
  | cons option all ih =>
    rw [List.map_cons, List.lookup_cons, List.mem_cons]
    by_cases found : text = keyword option
    · subst found
      simp only [beq_self_eq_true, Option.some.injEq, injective.eq_iff]
      exact ⟨fun h => ⟨.inl h.symm, h.symm⟩, fun h => h.2.symm⟩
    · have other : value = option → keyword value ≠ text := by
        rintro rfl
        exact Ne.symm found
      rw [beq_false_of_ne found, ih]
      exact ⟨fun h => ⟨.inr h.1, h.2⟩, fun h => ⟨h.1.resolve_left fun e => other e h.2, h.2⟩⟩

/-- A reader of options accepts the spellings of their keywords and nothing else. -/
structure Reads (parameter expectation : String) (keyword : α → String)
    (read : String → Except Failure α) : Prop where
  ok_iff (s : String) (option : α) : read s = .ok option ↔ Spells (keyword option) s
  keyword (option : α) : read (keyword option) = .ok option
  respelled (s s' : String) (h : Respells s s') : read s = read s'
  refused (s : String) (failure : Failure) (h : read s = .error failure) :
    ∃ shown, Shows s shown ∧ failure = .invalidArgument parameter shown expectation

theorem reads_of_all (all : List α) (complete : ∀ option, option ∈ all)
    (regular : ∀ option, normalize (keyword option) = keyword option)
    (injective : keyword.Injective) :
    Reads parameter expectation keyword
      (readKeyword parameter expectation (all.map fun option => (keyword option, option))) := by
  have ok_iff (s : String) (option : α) :
      readKeyword parameter expectation (all.map fun option => (keyword option, option)) s =
        .ok option ↔ Spells (keyword option) s := by
    rw [readKeyword_eq_ok_iff, lookup_keyword injective, ← normalize_eq_iff (regular option)]
    exact ⟨fun h => h.2.symm, fun h => ⟨complete option, h.symm⟩⟩
  constructor
  case ok_iff => exact ok_iff
  case keyword => exact fun option => (ok_iff _ option).mpr (spells_self _)
  case respelled => exact fun s s' h => readKeyword_of_respells h
  case refused => exact fun s failure h => ⟨_, shows_normalize s, eq_of_readKeyword_error h⟩

end Reading

end TrustRegion.Text

namespace TrustRegion

open Text (Reads Spells Respells)

theorem DirectionNorm.reads : Reads "direction_norm"
    "expected `preconditioned` or `unpreconditioned`" keyword ofText := by
  refine Text.reads_of_all all ?_ ?_ ?_
  · rintro ⟨⟩ <;> decide
  · rintro ⟨⟩ <;> rfl
  · rintro ⟨⟩ ⟨⟩ <;> decide

theorem ResidualNorm.reads : Reads "norm_type"
    "expected `preconditioned`, `unpreconditioned` or `natural`" keyword ofText := by
  refine Text.reads_of_all all ?_ ?_ ?_
  · rintro ⟨⟩ <;> decide
  · rintro ⟨⟩ <;> rfl
  · rintro ⟨⟩ ⟨⟩ <;> decide

/-- The residual norm with the keyword of a direction norm. -/
def DirectionNorm.residualNorm : DirectionNorm → ResidualNorm
  | preconditioned => .preconditioned
  | unpreconditioned => .unpreconditioned

theorem DirectionNorm.keyword_residualNorm (n : DirectionNorm) :
    n.residualNorm.keyword = n.keyword := by
  cases n <;> rfl

theorem ResidualNorm.ofText_of_directionNorm {s : String} {n : DirectionNorm}
    (h : DirectionNorm.ofText s = .ok n) : ofText s = .ok n.residualNorm := by
  have spelled : Spells n.keyword s := (DirectionNorm.reads.ok_iff s n).mp h
  rw [reads.ok_iff, n.keyword_residualNorm]
  exact spelled

/-- Options are read by their spelling: the case of ASCII letters and white space around them do not
matter, and nothing else is forgiven. Residual norms share the keywords of direction norms and have
one of their own. -/
theorem options_read_spellings :
    Reads "direction_norm" "expected `preconditioned` or `unpreconditioned`"
        DirectionNorm.keyword DirectionNorm.ofText ∧
      Reads "norm_type" "expected `preconditioned`, `unpreconditioned` or `natural`"
        ResidualNorm.keyword ResidualNorm.ofText ∧
      (∀ (s : String) (n : DirectionNorm), DirectionNorm.ofText s = .ok n →
        ∃ r : ResidualNorm, ResidualNorm.ofText s = .ok r ∧ r.keyword = n.keyword) ∧
      ∀ (s : String) (r : ResidualNorm),
        (ResidualNorm.ofText s = .ok r ∧ ∀ n, DirectionNorm.ofText s ≠ .ok n) ↔
          r = .natural ∧ Spells "natural" s := by
  refine ⟨DirectionNorm.reads, ResidualNorm.reads, fun s n h => ?_, fun s r => ⟨?_, ?_⟩⟩
  · exact ⟨n.residualNorm, ResidualNorm.ofText_of_directionNorm h, n.keyword_residualNorm⟩
  · rintro ⟨accepted, refused⟩
    have spelled := (ResidualNorm.reads.ok_iff s r).mp accepted
    cases r with
    | preconditioned =>
      exact absurd ((DirectionNorm.reads.ok_iff s .preconditioned).mpr spelled) (refused _)
    | unpreconditioned =>
      exact absurd ((DirectionNorm.reads.ok_iff s .unpreconditioned).mpr spelled) (refused _)
    | natural => exact ⟨rfl, spelled⟩
  · rintro ⟨rfl, spelled⟩
    have accepted := (ResidualNorm.reads.ok_iff s .natural).mpr spelled
    refine ⟨accepted, fun n h => ?_⟩
    rw [ResidualNorm.ofText_of_directionNorm h] at accepted
    cases n <;> cases accepted

/-- An em space before the word and a line feed after it. -/
theorem options_read_spellings_padded :
    Spells "natural" "\u2003NATural\n" ∧ ResidualNorm.ofText "\u2003NATural\n" = .ok .natural := by
  have spelled : Spells "natural" "\u2003NATural\n" := by
    have white : ∀ c ∈ ['\u2003'] ++ ['\n'], Text.IsWhiteSpace c := by simp [Text.IsWhiteSpace]
    refine ⟨"NATural".toList, ⟨['\u2003'], ['\n'], by decide, white⟩, ?_⟩
    exact Text.forall₂_map_toLower "NATural".toList
  exact ⟨spelled, ((options_read_spellings.2.2.2 _ .natural).mpr ⟨rfl, spelled⟩).1⟩

end TrustRegion
