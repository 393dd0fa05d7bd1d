import Mathlib.Data.List.DropRight

/-!
# Lines and words

Reading text line by line: `lines` cuts a text into its lines, `splitOnce` cuts a line at the first
character that satisfies a predicate, and `trimBy` takes such characters off both ends.

Each of them undoes a way of writing: `lines_append` for a line that ends in a line feed,
`splitOnce_append` for two parts with a separator between them, `trimBy_append` for what neither
starts nor ends with a separator.  The other direction says what is read: no line contains a line
feed (`lineFeed_notMem_of_mem_lines`), the first part no separator (`splitOnce_eq_some`), and
trimmed text neither starts nor ends with one (`trimmed_trimBy`).
-/

namespace Lines

variable {α : Type} {p : α → Bool}

/-! ### Lines -/

/-- The lines of a text, without the line feeds and carriage returns that end them.  The last line
need not be ended. -/
def lines : List Char → List (List Char)
  | [] => []
  | '\r' :: '\n' :: cs => [] :: lines cs
  | '\n' :: cs => [] :: lines cs
  | c :: cs =>
    match lines cs with
    | [] => [[c]]
    | l :: ls => (c :: l) :: ls

/-- A character that does not end a line begins one. -/
theorem lines_cons {c : Char} {cs : List Char} (hcr : ∀ cs', c = '\r' → cs ≠ '\n' :: cs')
    (hc : c ≠ '\n') :
    lines (c :: cs) = match lines cs with
      | [] => [[c]]
      | l :: ls => (c :: l) :: ls := by
  rw [lines]
  · exact hcr
  · exact hc

/-- **A line that ends in a line feed is read as it was written.** -/
theorem lines_append {l : List Char} (hlf : '\n' ∉ l) (hcr : l.getLast? ≠ some '\r')
    (rest : List Char) : lines (l ++ '\n' :: rest) = l :: lines rest := by
  induction l with
  | nil => rfl
  | cons c l ih =>
    rw [List.mem_cons, not_or] at hlf
    have hlast : l.getLast? ≠ some '\r' := by
      intro h
      rw [List.getLast?_cons, h] at hcr
      exact hcr rfl
    have hpair : ∀ cs', c = '\r' → l ++ '\n' :: rest ≠ '\n' :: cs' := by
      rintro cs' rfl hhead
      cases l with
      | nil => exact hcr rfl
      | cons d l =>
        obtain ⟨rfl, -⟩ := List.cons.inj hhead
        exact hlf.2 List.mem_cons_self
    rw [List.cons_append, lines_cons hpair (Ne.symm hlf.1), ih hlf.2 hlast]

/-- A text without a line feed is one line. -/
theorem lines_of_notMem {l : List Char} (hlf : '\n' ∉ l) (hne : l ≠ []) : lines l = [l] := by
  induction l with
  | nil => exact absurd rfl hne
  | cons c l ih =>
    rw [List.mem_cons, not_or] at hlf
    have hpair : ∀ cs', c = '\r' → l ≠ '\n' :: cs' := by
      rintro cs' - rfl
      exact hlf.2 List.mem_cons_self
    rw [lines_cons hpair (Ne.symm hlf.1)]
    cases l with
    | nil => rfl
    | cons d l => rw [ih hlf.2 (List.cons_ne_nil d l)]

/-- No line contains a line feed. -/
theorem lineFeed_notMem_of_mem_lines {text l : List Char} (h : l ∈ lines text) : '\n' ∉ l := by
  induction text using lines.induct generalizing l with
  | case1 => exact absurd h List.not_mem_nil
  | case2 cs ih | case3 cs ih =>
    rw [lines, List.mem_cons] at h
    rcases h with rfl | h
    · exact List.not_mem_nil
    · exact ih h
  | case4 c cs hcr hlf hcs ih =>
    rw [lines_cons hcr hlf, hcs] at h
    obtain rfl := List.mem_singleton.mp h
    exact fun hmem => hlf (List.mem_singleton.mp hmem).symm
  | case5 c cs hcr hlf l' ls hcs ih =>
    rw [lines_cons hcr hlf, hcs] at h
    rw [hcs] at ih
    rcases List.mem_cons.mp h with rfl | h
    · rw [List.mem_cons, not_or]
      exact ⟨fun hc => hlf hc.symm, ih List.mem_cons_self⟩
    · exact ih (List.mem_cons_of_mem _ h)

/-! ### The first separator -/

/-- Cut a list at the first element that satisfies the predicate. -/
def splitOnce (p : α → Bool) : List α → Option (List α × List α)
  | [] => none
  | c :: cs =>
    if p c then some ([], cs) else (splitOnce p cs).map fun parts => (c :: parts.1, parts.2)

theorem splitOnce_append {w : List α} (hw : ∀ c ∈ w, p c = false) {c : α} (hc : p c = true)
    (rest : List α) : splitOnce p (w ++ c :: rest) = some (w, rest) := by
  induction w with
  | nil => rw [List.nil_append, splitOnce, if_pos hc]
  | cons d w ih =>
    rw [List.cons_append, splitOnce, if_neg (by simp [hw d List.mem_cons_self]),
      ih fun c' hc' => hw c' (List.mem_cons_of_mem d hc'), Option.map_some]

theorem splitOnce_eq_some {l w rest : List α} (h : splitOnce p l = some (w, rest)) :
    (∀ c ∈ w, p c = false) ∧ ∃ c, p c = true ∧ l = w ++ c :: rest := by
  induction l generalizing w with
  | nil => exact absurd h (Option.some_ne_none _).symm
  | cons d l ih =>
    rw [splitOnce] at h
    split_ifs at h with hd
    · obtain ⟨rfl, rfl⟩ := Prod.mk.inj (Option.some.inj h)
      exact ⟨fun c hc => absurd hc List.not_mem_nil, d, hd, rfl⟩
    · obtain ⟨⟨w', rest'⟩, hparts, heq⟩ := Option.map_eq_some_iff.mp h
      obtain ⟨rfl, rfl⟩ := Prod.mk.inj heq
      obtain ⟨hw, c, hc, rfl⟩ := ih hparts
      refine ⟨fun c' hc' => ?_, c, hc, rfl⟩
      rcases List.mem_cons.mp hc' with rfl | hc'
      · exact Bool.eq_false_iff.mpr hd
      · exact hw c' hc'

/-! ### Both ends -/

/-- Take the elements that satisfy the predicate off both ends. -/
def trimBy (p : α → Bool) (l : List α) : List α := (l.dropWhile p).rdropWhile p

/-- The list is not empty, and neither starts nor ends with an element that satisfies the
predicate. -/
structure Trimmed (p : α → Bool) (l : List α) : Prop where
  ne_nil : l ≠ []
  head : ∀ c, l.head? = some c → p c = false
  last : ∀ c, l.getLast? = some c → p c = false

theorem Trimmed.rdropWhile_append {l : List α} (h : Trimmed p l) (after : List α) :
    (l ++ after).rdropWhile p = l ++ after.rdropWhile p := by
  induction after using List.reverseRecOn with
  | nil =>
    rw [List.append_nil, List.rdropWhile_nil, List.append_nil]
    refine List.rdropWhile_eq_self_iff.mpr fun hl => ?_
    rw [Bool.not_eq_true]
    exact h.last _ (List.getLast?_eq_getLast_of_ne_nil hl)
  | append_singleton after c ih =>
    rw [← List.append_assoc, List.rdropWhile_concat, List.rdropWhile_concat]
    split_ifs
    · exact ih
    · exact List.append_assoc l after [c]

/-- Trimming does not reach into a list that is trimmed. -/
theorem Trimmed.trimBy_append {l : List α} (h : Trimmed p l) {before : List α}
    (hbefore : ∀ c ∈ before, p c = true) (after : List α) :
    trimBy p (before ++ l ++ after) = l ++ after.rdropWhile p := by
  have hdrop : (l ++ after).dropWhile p = l ++ after := by
    refine List.dropWhile_eq_self_iff.mpr fun hl => ?_
    rw [Bool.not_eq_true]
    refine h.head _ ?_
    rw [← List.head?_append_of_ne_nil l h.ne_nil, List.head?_eq_getElem?]
    exact List.getElem?_eq_getElem hl
  rw [trimBy, List.append_assoc, List.dropWhile_append_of_pos hbefore, hdrop,
    h.rdropWhile_append]

/-- What is trimmed already stays as it is. -/
theorem Trimmed.trimBy_eq {l : List α} (h : Trimmed p l) : trimBy p l = l := by
  simpa using h.trimBy_append  (fun c hc => absurd hc List.not_mem_nil) []

/-- Elements that do not satisfy the predicate form a trimmed list. -/
theorem trimmed_of_forall {l : List α} (hne : l ≠ []) (h : ∀ c ∈ l, p c = false) : Trimmed p l where
  ne_nil := hne
  head _ hc := h _ (List.mem_of_mem_head? hc)
  last _ hc := h _ (List.mem_of_mem_getLast? hc)

/-- Between two trimmed parts anything may stand. -/
theorem Trimmed.append {w v : List α} (hw : Trimmed p w) (hv : Trimmed p v) (sep : List α) :
    Trimmed p (w ++ sep ++ v) where
  ne_nil h := hw.ne_nil (List.append_eq_nil_iff.mp (List.append_eq_nil_iff.mp h).1).1
  head c hc := by
    rw [List.append_assoc, List.head?_append_of_ne_nil _ hw.ne_nil] at hc
    exact hw.head c hc
  last c hc := by
    rw [List.getLast?_append_of_ne_nil _ hv.ne_nil] at hc
    exact hv.last c hc

theorem trimBy_sublist (p : α → Bool) (l : List α) : (trimBy p l).Sublist l :=
  (List.rdropWhile_prefix p _).sublist.trans (List.dropWhile_sublist p)

/-- What trimming takes off satisfies the predicate. -/
theorem exists_trimBy (p : α → Bool) (l : List α) :
    ∃ before after, l = before ++ trimBy p l ++ after ∧ (∀ c ∈ before, p c = true) ∧
      ∀ c ∈ after, p c = true := by
  refine ⟨l.takeWhile p, (l.dropWhile p).rtakeWhile p, ?_, fun c => List.mem_takeWhile_imp,
    fun c => List.mem_rtakeWhile_imp⟩
  rw [List.append_assoc, trimBy, List.rdropWhile_append_rtakeWhile, List.takeWhile_append_dropWhile]

/-- Of a list of which trimming leaves nothing, every element satisfies the predicate. -/
theorem forall_of_trimBy_eq_nil {l : List α} (h : trimBy p l = []) : ∀ c ∈ l, p c = true := by
  obtain ⟨before, after, hl, hbefore, hafter⟩ := exists_trimBy p l
  rw [h, List.append_nil] at hl
  intro c hc
  rw [hl, List.mem_append] at hc
  exact hc.elim (hbefore c) (hafter c)

/-- A trimmed list has something on both sides of a separator. -/
theorem Trimmed.ne_nil_of_sep {w rest : List α} {c : α} (h : Trimmed p (w ++ c :: rest))
    (hc : p c = true) : w ≠ [] ∧ trimBy p rest ≠ [] := by
  constructor
  · rintro rfl
    exact absurd (hc.symm.trans (h.head c rfl)) (by decide)
  · intro hnil
    have hlast := h.last _ (List.getLast?_eq_getLast_of_ne_nil h.ne_nil)
    rw [List.getLast_append_of_ne_nil _ (List.cons_ne_nil c rest)] at hlast
    rcases List.mem_cons.mp (List.getLast_mem (List.cons_ne_nil c rest)) with heq | hmem
    · rw [heq, hc] at hlast
      exact absurd hlast (by decide)
    · rw [forall_of_trimBy_eq_nil hnil _ hmem] at hlast
      exact absurd hlast (by decide)

/-- What is left after trimming is trimmed. -/
theorem trimmed_trimBy {l : List α} (h : trimBy p l ≠ []) : Trimmed p (trimBy p l) where
  ne_nil := h
  head c hc := by
    -- the head is that of the list with its beginning taken off
    have hprefix : trimBy p l <+: l.dropWhile p := List.rdropWhile_prefix p _
    obtain ⟨rest, hrest⟩ := hprefix
    have hhead : (l.dropWhile p).head? = some c := by
      rw [← hrest, List.head?_append_of_ne_nil _ h, hc]
    have hidem : (l.dropWhile p).dropWhile p = l.dropWhile p := List.dropWhile_idempotent p l
    cases hdrop : l.dropWhile p with
    | nil =>
      rw [hdrop] at hhead
      exact absurd hhead (Option.some_ne_none c).symm
    | cons d ds =>
      rw [hdrop] at hhead hidem
      obtain rfl : d = c := Option.some.inj hhead
      by_contra hd
      rw [Bool.not_eq_false] at hd
      rw [List.dropWhile_cons_of_pos hd] at hidem
      have hlen := congrArg List.length hidem
      have hle : (ds.dropWhile p).length ≤ ds.length := (List.dropWhile_sublist p).length_le
      rw [List.length_cons] at hlen
      omega
  last c hc := by
    rw [List.getLast?_eq_getLast_of_ne_nil h] at hc
    rw [← Option.some.inj hc]
    exact Bool.eq_false_iff.mpr (List.rdropWhile_last_not p _ h)

end Lines
