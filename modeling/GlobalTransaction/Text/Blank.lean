/-!
# Blank characters

The characters that count as white space around a setting or an identifier, and
the removal of such characters from the ends of a text. The class is the Unicode
property `White_Space`; the zero-width space, the byte order mark and the
information separators are not in it.

## Main definitions

* `Text.isBlank` — membership in the class
* `Text.trimStart`, `Text.trim` — a text without its outer blanks
* `Text.IsPadded` — a text with blanks around it

## Main results

* `Text.trimStart_append_of_blank`, `Text.IsPadded.trim_eq` — what trimming removes and what it keeps
* `Text.trim_iff_exists_isPadded` — what trimming leaves, in terms of padded texts
-/

namespace GlobalTransaction.Text

/-- The closed code point ranges of the property `White_Space`. -/
def blankRanges : List (Nat × Nat) :=
  [(0x09, 0x0D), (0x20, 0x20), (0x85, 0x85), (0xA0, 0xA0), (0x1680, 0x1680), (0x2000, 0x200A),
    (0x2028, 0x2029), (0x202F, 0x202F), (0x205F, 0x205F), (0x3000, 0x3000)]

/-- A blank is a character of the property `White_Space`. -/
def isBlank (c : Char) : Bool :=
  blankRanges.any fun range => range.1 ≤ c.toNat && c.toNat ≤ range.2

/-- A text without the blanks it begins with. -/
def trimStart (cs : List Char) : List Char := cs.dropWhile isBlank

/-- A text without the blanks it ends with. -/
def trimEnd (cs : List Char) : List Char := (trimStart cs.reverse).reverse

/-- A text without the blanks around it. -/
def trim (cs : List Char) : List Char := trimEnd (trimStart cs)

/-- A text is blank when nothing is left of it after trimming. -/
def isAllBlank (cs : List Char) : Bool := (trim cs).isEmpty

/-- A text is another one, its core, with any blanks before and after it. -/
def IsPadded (cs core : List Char) : Prop :=
  ∃ before after, (∀ c ∈ before, isBlank c) ∧ (∀ c ∈ after, isBlank c) ∧
    cs = before ++ core ++ after

/-! ### Laws of trimming -/

theorem isBlank_of_isDigit {c : Char} (h : c.isDigit) : isBlank c = false := by
  have hrange : 48 ≤ c.toNat ∧ c.toNat ≤ 57 := by
    simpa [Char.isDigit, UInt32.le_iff_toNat_le] using h
  simp [isBlank, blankRanges]
  omega

@[simp] theorem trimStart_nil : trimStart [] = [] := rfl

theorem trimStart_cons_of_blank {c : Char} (h : isBlank c) (cs : List Char) :
    trimStart (c :: cs) = trimStart cs := by
  simp [trimStart, h]

theorem trimStart_cons_of_not_blank {c : Char} (h : isBlank c = false) (cs : List Char) :
    trimStart (c :: cs) = c :: cs := by
  simp [trimStart, h]

theorem trimStart_append_of_blank {pad : List Char} (h : ∀ c ∈ pad, isBlank c) (cs : List Char) :
    trimStart (pad ++ cs) = trimStart cs := by
  induction pad with
  | nil => rfl
  | cons c pad ih =>
    rw [List.cons_append, trimStart_cons_of_blank (h c (by simp))]
    exact ih fun d hd => h d (by simp [hd])

theorem trimStart_eq_self_of_head {cs : List Char}
    (h : ∀ c, cs.head? = some c → isBlank c = false) :
    trimStart cs = cs := by
  cases cs with
  | nil => rfl
  | cons c cs => exact trimStart_cons_of_not_blank (h c rfl) cs

/-- Only blanks go when the beginning of a text is trimmed. -/
theorem exists_append_trimStart (cs : List Char) :
    ∃ pad, (∀ c ∈ pad, isBlank c) ∧ cs = pad ++ trimStart cs :=
  ⟨cs.takeWhile isBlank, List.all_eq_true.1 List.all_takeWhile,
    List.takeWhile_append_dropWhile.symm⟩

/-- Every text is what trimming leaves of it, padded. -/
theorem isPadded_trim (cs : List Char) : IsPadded cs (trim cs) := by
  obtain ⟨before, hbefore, hcs⟩ := exists_append_trimStart cs
  obtain ⟨after, hafter, hreverse⟩ := exists_append_trimStart (trimStart cs).reverse
  have hrest : trimStart cs = trim cs ++ after.reverse := by
    rw [trim, trimEnd, ← List.reverse_append, ← hreverse, List.reverse_reverse]
  refine ⟨before, after.reverse, hbefore, ?_, ?_⟩
  · intro c hc
    exact hafter c (List.mem_reverse.1 hc)
  · rw [List.append_assoc, ← hrest, ← hcs]

/-- Padding goes, up to the first and the last character that are no blanks. -/
theorem IsPadded.trim_eq {cs core : List Char} (h : IsPadded cs core)
    (hfirst : ∀ c, core.head? = some c → isBlank c = false)
    (hlast : ∀ c, core.getLast? = some c → isBlank c = false) : trim cs = core := by
  obtain ⟨before, after, hbefore, hafter, rfl⟩ := h
  rw [List.append_assoc, trim, trimStart_append_of_blank hbefore]
  cases core with
  | nil =>
    have hnone : trimStart after = [] := by
      rw [← List.append_nil after, trimStart_append_of_blank hafter, trimStart_nil]
    rw [List.nil_append, hnone]
    rfl
  | cons c cs =>
    have hreverse : ∀ d ∈ after.reverse, isBlank d := by
      intro d hd
      exact hafter d (List.mem_reverse.1 hd)
    have hend : ∀ d, (c :: cs).reverse.head? = some d → isBlank d = false := by
      intro d hd
      rw [List.head?_reverse] at hd
      exact hlast d hd
    rw [List.cons_append, trimStart_cons_of_not_blank (hfirst c rfl), ← List.cons_append, trimEnd,
      List.reverse_append, trimStart_append_of_blank hreverse, trimStart_eq_self_of_head hend,
      List.reverse_reverse]

/-- If no text with some property has a blank in it, then trimming leaves such a text exactly of
those texts that are one of them, padded. -/
theorem trim_iff_exists_isPadded {P : List Char → Prop}
    (hP : ∀ core, P core → ∀ c ∈ core, isBlank c = false) (cs : List Char) :
    P (trim cs) ↔ ∃ core, IsPadded cs core ∧ P core := by
  constructor
  · intro h
    exact ⟨trim cs, isPadded_trim cs, h⟩
  · rintro ⟨core, hpadded, hcore⟩
    have hnone := hP core hcore
    rwa [hpadded.trim_eq (fun c hc => hnone c (List.mem_of_head? hc))
      fun c hc => hnone c (List.mem_of_getLast? hc)]

end GlobalTransaction.Text
