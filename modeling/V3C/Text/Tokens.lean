import Mathlib.Data.List.Infix

/-! Texts that are split into lines and words, and searched. -/
namespace Text

variable {α : Type}

def wordsFrom (separates : α → Bool) : List α → List α → List (List α)
  | buf, [] => if buf.isEmpty then [] else [buf]
  | buf, c :: text =>
    if separates c then
      if buf.isEmpty then wordsFrom separates [] text else buf :: wordsFrom separates [] text
    else wordsFrom separates (buf ++ [c]) text

def words (separates : α → Bool) (text : List α) : List (List α) := wordsFrom separates [] text

section Words

variable {separates : α → Bool} {word text : List α} {sep : α}

theorem wordsFrom_append (hword : ∀ c ∈ word, separates c = false) (buf : List α) :
    wordsFrom separates buf (word ++ text) = wordsFrom separates (buf ++ word) text := by
  induction word generalizing buf with
  | nil => rw [List.nil_append, List.append_nil]
  | cons c word ih =>
    have hc := hword c List.mem_cons_self
    rw [List.cons_append, wordsFrom, if_neg (by rw [hc]; exact Bool.false_ne_true),
      ih (fun c hc => hword c (List.mem_cons_of_mem _ hc)), List.append_assoc]
    rfl

theorem words_append (hne : word ≠ []) (hword : ∀ c ∈ word, separates c = false)
    (hsep : separates sep = true) : words separates (word ++ sep :: text) =
      word :: words separates text := by
  unfold words
  rw [wordsFrom_append hword, List.nil_append, wordsFrom, if_pos hsep,
    if_neg (by rwa [List.isEmpty_iff])]

theorem words_self (hne : word ≠ []) (hword : ∀ c ∈ word, separates c = false) :
    words separates word = [word] := by
  have hwords := @wordsFrom_append _ _ _ [] hword []
  rw [List.append_nil, List.nil_append] at hwords
  unfold words
  rw [hwords, wordsFrom, if_neg (by rwa [List.isEmpty_iff])]

theorem words_flatMap {ws : List (List α)} (hne : word ≠ [])
    (hword : ∀ c ∈ word, separates c = false) (hws : ∀ w ∈ ws, w ≠ [] ∧ ∀ c ∈ w, separates c = false)
    (hsep : separates sep = true) :
    words separates (word ++ ws.flatMap (sep :: ·)) = word :: ws := by
  induction ws generalizing word with
  | nil => rw [List.flatMap_nil, List.append_nil, words_self hne hword]
  | cons w ws ih =>
    obtain ⟨hw, hwc⟩ := hws w List.mem_cons_self
    rw [List.flatMap_cons, List.cons_append, words_append hne hword hsep,
      ih hw hwc fun w hw => hws w (List.mem_cons_of_mem _ hw)]

end Words

section Lines

variable [DecidableEq α] {newline : α} {text : List α}

def lines (newline : α) (text : List α) : List (List α) := text.splitOn newline

/-- Lines that are written one after the other. -/
def unlines (newline : α) (ls : List (List α)) : List α := ls.flatMap (· ++ [newline])

theorem lines_unlines {ls : List (List α)} (hls : ∀ l ∈ ls, newline ∉ l) :
    lines newline (unlines newline ls ++ text) = ls ++ lines newline text := by
  induction ls with
  | nil => rfl
  | cons l ls ih =>
    have hl : ∀ c ∈ l, (c == newline) = false := by
      intro c hc
      rw [beq_eq_false_iff_ne]
      rintro rfl
      exact hls l List.mem_cons_self hc
    have hunlines : unlines newline (l :: ls) ++ text =
        l ++ newline :: (unlines newline ls ++ text) := by
      unfold unlines
      rw [List.flatMap_cons, List.append_assoc, List.append_assoc]
      rfl
    rw [hunlines]
    unfold lines List.splitOn at ih ⊢
    rw [List.splitOnP_append_cons_of_forall_mem hl newline BEq.rfl,
      ih fun l hl => hls l (List.mem_cons_of_mem _ hl)]
    rfl

omit [DecidableEq α] in
theorem length_unlines_le (newline : α) {ls : List (List α)} {k : ℕ}
    (hls : ∀ l ∈ ls, l.length ≤ k) : (unlines newline ls).length ≤ (k + 1) * ls.length := by
  induction ls with
  | nil => exact Nat.zero_le _
  | cons l ls ih =>
    have hl := hls l List.mem_cons_self
    have hrest := ih fun l hl => hls l (List.mem_cons_of_mem _ hl)
    unfold unlines at hrest ⊢
    rw [List.flatMap_cons, List.length_append, List.length_append, List.length_singleton,
      List.length_cons, Nat.mul_succ]
    omega

end Lines

section Search

variable [DecidableEq α]

/-- The text from the first place of a pattern on. -/
def search (pattern : List α) : List α → Option (List α)
  | [] => if pattern.isEmpty then some [] else none
  | c :: text =>
    if pattern.isPrefixOf (c :: text) then some (c :: text) else search pattern text

variable {pattern l text : List α} {newline : α}

theorem search_of_prefix (hstart : pattern <+: text) : search pattern text = some text := by
  cases text with
  | nil =>
    rw [List.prefix_nil.mp hstart]
    rfl
  | cons c text =>
    rw [search, if_pos (List.isPrefixOf_iff_prefix.mpr hstart)]

/-- A pattern within a line is not found before the line that has it. -/
theorem search_line (hnewline : newline ∉ pattern) (hline : ¬pattern <:+: l) :
    search pattern (l ++ newline :: text) = search pattern text := by
  have hstart : ∀ l : List α, ¬pattern <:+: l → ¬pattern <+: l ++ newline :: text := by
    intro l hline hstart
    have hfirst : l ++ [newline] <+: l ++ newline :: text := by
      exact ⟨text, by rw [List.append_assoc, List.singleton_append]⟩
    rcases List.prefix_or_prefix_of_prefix hstart hfirst with hin | hover
    · rcases List.prefix_concat_iff.mp hin with heq | hin
      · rw [heq] at hnewline
        exact hnewline (List.mem_append_right _ List.mem_cons_self)
      · exact hline hin.isInfix
    · exact hnewline (hover.subset (List.mem_append_right _ List.mem_cons_self))
  induction l with
  | nil =>
    have hnot := hstart [] hline
    rw [List.nil_append] at hnot ⊢
    rw [search, if_neg fun h => hnot (List.isPrefixOf_iff_prefix.mp h)]
  | cons c l ih =>
    have hnot := hstart (c :: l) hline
    have htail : ¬pattern <:+: l := fun h => hline (h.trans (List.suffix_cons c l).isInfix)
    rw [List.cons_append] at hnot ⊢
    rw [search, if_neg fun h => hnot (List.isPrefixOf_iff_prefix.mp h), ih htail]

/-- A pattern is not found in lines without it. -/
theorem search_unlines {ls : List (List α)} (hnewline : newline ∉ pattern)
    (hls : ∀ l ∈ ls, ¬pattern <:+: l) :
    search pattern (unlines newline ls ++ text) = search pattern text := by
  induction ls with
  | nil => rfl
  | cons l ls ih =>
    have hl := hls l List.mem_cons_self
    have hunlines : unlines newline (l :: ls) ++ text =
        l ++ newline :: (unlines newline ls ++ text) := by
      unfold unlines
      rw [List.flatMap_cons, List.append_assoc, List.append_assoc]
      rfl
    rw [hunlines, search_line hnewline hl, ih fun l hl => hls l (List.mem_cons_of_mem _ hl)]

/-- The end of a line is found. -/
theorem search_newline (hl : newline ∉ l) :
    search [newline] (l ++ newline :: text) = some (newline :: text) := by
  induction l with
  | nil => exact search_of_prefix (List.prefix_append [newline] text)
  | cons c l ih =>
    have hstart : ¬[newline].isPrefixOf (c :: (l ++ newline :: text)) = true := by
      intro h
      have hc := (List.cons_prefix_cons.mp (List.isPrefixOf_iff_prefix.mp h)).1
      rw [hc] at hl
      exact hl List.mem_cons_self
    rw [List.cons_append, search, if_neg hstart, ih fun h => hl (List.mem_cons_of_mem _ h)]

end Search

end Text
