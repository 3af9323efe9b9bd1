import Mathlib.Data.List.DropRight
import Mathlib.Data.List.TakeWhile
import NodeDisks.Text

/-!
Readings of text: where a part of it is found, what it is cut into, and what trimming leaves.
-/

/-!
## Beginnings and occurrences

What the tests for a beginning and for an occurrence say: the one is a run of characters at the front
of the text, the other a run somewhere in it. With letters of either case it is a run that becomes
`needle` in lower case.
-/

namespace NodeDisks.Text

theorem occursIn_iff {needle s : List Char} : occursIn needle s = true ↔ needle <:+: s := by
  induction s with
  | nil => simp [occursIn]
  | cons c cs ih => simp [occursIn, ih, List.infix_cons_iff]

theorem startsWith_iff {s start : String} :
    startsWith s start = true ↔ start.toList <+: s.toList := List.isPrefixOf_iff_prefix

theorem contains_iff {s needle : String} :
    contains s needle = true ↔ needle.toList <:+: s.toList := occursIn_iff

/-- Some run of characters of `s` is `word` up to the case of its letters; `word` is in lower case. -/
def MentionsAnyCase (word s : String) : Prop :=
  ∃ run, run <:+: s.toList ∧ run.map Char.toLower = word.toList

theorem occursIn_lower_iff {word s : String} :
    occursIn word.toList (s.toList.map Char.toLower) = true ↔ MentionsAnyCase word s := by
  rw [occursIn_iff, List.infix_map_iff, MentionsAnyCase]
  exact exists_congr fun run => and_congr_right fun _ => eq_comm

/-!
## Cutting

Texts put together from parts are taken apart into the same parts. The words of a line stand one blank
apart (`words_intercalate`); a text is cut at its first separator (`eq_append_of_splitOnce`). A text is
`Lined` by lines that are each ended by a line feed; a carriage return at the end of a line goes with the
line end, so a reading of lines has to be indifferent to it (`Lined.filterMap_lines`).
-/

variable {c sep : Char} {l r w cs : List Char} {ls ws : List (List Char)}

/-- Something without white space in it. -/
def IsWord (w : List Char) : Prop := w ≠ [] ∧ ∀ c ∈ w, isBlank c = false

instance : DecidablePred IsWord := fun w =>
  decidable_of_iff ((!w.isEmpty && w.all (!isBlank ·)) = true) (by simp [IsWord])

/-! ### Words -/

theorem words_append_space (hw : IsWord w) : words (w ++ ' ' :: cs) = w :: words cs := by
  obtain ⟨hne, hblank⟩ := hw
  rw [words, List.splitOnP_append_cons_of_forall_mem hblank ' ' rfl,
    List.filter_cons_of_pos (by simpa using hne), words]

theorem words_of_isWord (hw : IsWord w) : words w = [w] := by
  obtain ⟨hne, hblank⟩ := hw
  rw [words, List.splitOnP_eq_singleton hblank, List.filter_cons_of_pos (by simpa using hne),
    List.filter_nil]

/-- Words set one blank apart are the words of the line. -/
theorem words_intercalate (H : ∀ w ∈ ws, IsWord w) : words ([' '].intercalate ws) = ws := by
  induction ws with
  | nil => rfl
  | cons w ws ih =>
    obtain ⟨hw, hws⟩ := List.forall_mem_cons.mp H
    cases ws with
    | nil => rw [List.intercalate_singleton, words_of_isWord hw]
    | cons w' ws =>
      rw [List.intercalate_cons_cons, List.append_assoc, List.singleton_append,
        words_append_space hw, ih hws]

theorem infix_intercalate (hw : w ∈ ws) : w <:+: [' '].intercalate ws := by
  induction ws with
  | nil => cases hw
  | cons w' ws ih =>
    cases ws with
    | nil =>
      obtain rfl := List.mem_singleton.mp hw
      exact List.intercalate_singleton ▸ List.infix_rfl
    | cons w'' ws =>
      rw [List.intercalate_cons_cons]
      rcases List.mem_cons.mp hw with rfl | hw
      · rw [List.append_assoc]
        exact (List.prefix_append _ _).isInfix
      · exact (ih hw).trans (List.suffix_append _ _).isInfix

theorem mem_of_mem_intercalate (hc : c ∈ [' '].intercalate ws) : c = ' ' ∨ ∃ w ∈ ws, c ∈ w := by
  induction ws with
  | nil => cases hc
  | cons w ws ih =>
    cases ws with
    | nil =>
      rw [List.intercalate_singleton] at hc
      exact .inr ⟨w, .head _, hc⟩
    | cons w' ws =>
      rw [List.intercalate_cons_cons, List.append_assoc, List.mem_append, List.singleton_append,
        List.mem_cons] at hc
      rcases hc with hc | hc | hc
      · exact .inr ⟨w, .head _, hc⟩
      · exact .inl hc
      · exact (ih hc).imp_right fun ⟨v, hv, hcv⟩ => ⟨v, .tail _ hv, hcv⟩

theorem feed_not_mem_intercalate (H : ∀ w ∈ ws, IsWord w) : '\n' ∉ [' '].intercalate ws := by
  intro hfeed
  rcases mem_of_mem_intercalate hfeed with h | ⟨w, hw, hfeed⟩
  · cases h
  · cases (H w hw).2 _ hfeed

theorem getLast?_intercalate (H : ∀ w ∈ ws, IsWord w) :
    ∀ c ∈ ([' '].intercalate ws).getLast?, isBlank c = false := by
  induction ws with
  | nil => simp [List.intercalate_nil]
  | cons w ws ih =>
    obtain ⟨hw, hws⟩ := List.forall_mem_cons.mp H
    intro c hc
    cases ws with
    | nil =>
      rw [List.intercalate_singleton] at hc
      exact hw.2 c (List.mem_of_getLast? hc)
    | cons w' ws =>
      have hne : [' '].intercalate (w' :: ws) ≠ [] := by
        intro hnil
        have hinfix := infix_intercalate (List.mem_cons_self (a := w') (l := ws))
        rw [hnil, List.infix_nil] at hinfix
        exact (hws w' (.head _)).1 hinfix
      rw [List.intercalate_cons_cons, List.getLast?_append,
        Option.or_of_isSome (List.getLast?_isSome.mpr hne)] at hc
      exact ih hws c hc

/-! ### Separators and quotes -/

theorem splitOnce_append (hl : sep ∉ l) : splitOnce sep (l ++ sep :: r) = some (l, r) := by
  induction l with
  | nil => rw [List.nil_append, splitOnce, if_pos rfl]
  | cons c l ih =>
    obtain ⟨hc, hl⟩ := not_or.mp (mt List.mem_cons.mpr hl)
    rw [List.cons_append, splitOnce, if_neg (Ne.symm hc), ih hl]
    rfl

/-- The first part of a cut goes up to the first separator. -/
theorem eq_append_of_splitOnce (H : splitOnce sep cs = some (l, r)) :
    cs = l ++ sep :: r ∧ sep ∉ l := by
  induction cs generalizing l with
  | nil => cases H
  | cons c cs ih =>
    rw [splitOnce] at H
    split at H
    · cases H
      exact ⟨by rw [‹c = sep›, List.nil_append], List.not_mem_nil⟩
    · rename_i hc
      obtain ⟨⟨l', r'⟩, hsplit, heq⟩ := Option.map_eq_some_iff.mp H
      cases heq
      obtain ⟨rfl, hsep⟩ := ih hsplit
      exact ⟨rfl, mt List.mem_cons.mp (not_or.mpr ⟨Ne.symm hc, hsep⟩)⟩

theorem dropWhile_of_not_mem (hc : c ∉ cs) : cs.dropWhile (· == c) = cs := by
  rw [List.dropWhile_eq_self_iff]
  intro hl
  have hne : cs[0] ≠ c := fun h => hc (h ▸ List.getElem_mem hl)
  simpa using hne

theorem stripChar_quoted (hc : c ∉ cs) : stripChar c (c :: (cs ++ [c])) = cs := by
  rw [stripChar, List.dropWhile_cons_of_pos (by simp)]
  cases cs with
  | nil => simp
  | cons d cs =>
    have hd : d ≠ c := fun h => hc (h ▸ .head _)
    have hreverse : c ∉ (d :: cs).reverse := by rwa [List.mem_reverse]
    rw [List.cons_append, List.dropWhile_cons_of_neg (by simpa using hd), ← List.cons_append,
      List.reverse_append, List.reverse_singleton, List.singleton_append,
      List.dropWhile_cons_of_pos (by simp), dropWhile_of_not_mem hreverse, List.reverse_reverse]

/-! ### Lines -/

/-- The text is made of these lines, each ended by a line feed; the last one may lack it unless it is
empty. -/
inductive Lined : List (List Char) → List Char → Prop where
  | nil : Lined [] []
  | last {l : List Char} : '\n' ∉ l → l ≠ [] → Lined [l] l
  | cons {l : List Char} {ls : List (List Char)} {cs : List Char} : '\n' ∉ l → Lined ls cs →
    Lined (l :: ls) (l ++ '\n' :: cs)

theorem lined_flatMap (H : ∀ l ∈ ls, '\n' ∉ l) : Lined ls (ls.flatMap (· ++ ['\n'])) := by
  induction ls with
  | nil => exact .nil
  | cons l ls ih =>
    obtain ⟨hl, hls⟩ := List.forall_mem_cons.mp H
    rw [List.flatMap_cons, List.append_assoc, List.singleton_append]
    exact .cons hl (ih hls)

theorem dropReturn_of_not_blank (H : ∀ c ∈ l.getLast?, isBlank c = false) : dropReturn l = l := by
  induction l with
  | nil => rfl
  | cons c l ih =>
    cases l with
    | nil =>
      have hc : c ≠ '\r' := by
        rintro rfl
        cases H _ rfl
      rw [dropReturn, if_neg hc]
    | cons d l =>
      rw [List.getLast?_cons_cons] at H
      rw [dropReturn, ih H]

theorem mem_of_mem_dropReturn (H : c ∈ dropReturn l) : c ∈ l := by
  induction l with
  | nil => cases H
  | cons d l ih =>
    cases l with
    | nil =>
      rw [dropReturn] at H
      split at H
      · cases H
      · exact H
    | cons d' l =>
      rw [dropReturn] at H
      rcases List.mem_cons.mp H with rfl | H
      · exact .head _
      · exact .tail _ (ih H)

theorem lines_append_feed (hl : '\n' ∉ l) : lines (l ++ '\n' :: cs) = dropReturn l :: lines cs := by
  rw [lines, lines, List.splitOn_append_cons_self_of_not_mem hl]
  cases hpieces : cs.splitOn '\n' with
  | nil => exact absurd hpieces (List.splitOn_ne_nil '\n' cs)
  | cons piece pieces => rw [endedLines]

theorem lines_of_not_mem (hl : '\n' ∉ l) (hne : l ≠ []) : lines l = [l] := by
  rw [lines, List.splitOn_eq_singleton hl, endedLines, if_neg (by simpa using hne)]

/-- Lines are read alike with and without a carriage return at their ends. -/
theorem Lined.filterMap_lines {α : Type} {f : List Char → Option α} (H : Lined ls cs)
    (hf : ∀ l ∈ ls, f (dropReturn l) = f l) : (lines cs).filterMap f = ls.filterMap f := by
  induction H with
  | nil => rfl
  | last hl hne => rw [lines_of_not_mem hl hne]
  | cons hl _ ih =>
    obtain ⟨hfl, hf⟩ := List.forall_mem_cons.mp hf
    rw [lines_append_feed hl, List.filterMap_cons, List.filterMap_cons, hfl, ih hf]

theorem Lined.lines_eq (H : Lined ls cs) (hls : ∀ l ∈ ls, dropReturn l = l) : lines cs = ls := by
  have hsome := H.filterMap_lines (f := some) fun l hl => congrArg some (hls l hl)
  rwa [List.filterMap_some, List.filterMap_some] at hsome

end NodeDisks.Text

/-!
## Trimming

Trimming takes the blanks off both ends, and leaves a text alone that has none there.
-/

namespace NodeDisks.Text

variable {c : Char} {cs l r : List Char} {s t : String}

/-- No blank at either end. -/
def Trimmed (s : String) : Prop :=
  (∀ c ∈ s.toList.head?, isBlank c = false) ∧ ∀ c ∈ s.toList.getLast?, isBlank c = false

instance : DecidablePred Trimmed := fun s =>
  decidable_of_iff (s.toList.head?.all (!isBlank ·) && s.toList.getLast?.all (!isBlank ·))
    (by simp [Trimmed, Option.all_eq_true])

theorem getLast?_stripRight : ∀ c ∈ (stripRight cs).getLast?, isBlank c = false := by
  induction cs with
  | nil => simp [stripRight]
  | cons c cs ih =>
    rw [stripRight]
    split
    · by_cases hc : isBlank c
      · simp [hc]
      · simp [hc]
    · rename_i d ds heq
      rwa [heq, ← List.getLast?_cons_cons (a := c)] at ih

theorem head?_stripRight : ∀ c ∈ (stripRight cs).head?, c ∈ cs.head? := by
  cases cs with
  | nil => simp [stripRight]
  | cons c cs =>
    rw [stripRight]
    split
    · by_cases hc : isBlank c <;> simp [hc]
    · simp

theorem mem_of_mem_stripRight {c : Char} (H : c ∈ stripRight cs) : c ∈ cs := by
  induction cs with
  | nil => cases H
  | cons d cs ih =>
    rw [stripRight] at H
    split at H
    · split at H
      · cases H
      · obtain rfl := List.mem_singleton.mp H
        exact .head _
    · rename_i d' ds heq
      rcases List.mem_cons.mp H with rfl | H
      · exact .head _
      · exact .tail _ (ih (heq ▸ H))

theorem mem_of_mem_strip {c : Char} (H : c ∈ strip cs) : c ∈ cs :=
  (List.dropWhile_suffix isBlank).subset (mem_of_mem_stripRight H)

theorem stripRight_eq_self (H : ∀ c ∈ cs.getLast?, isBlank c = false) : stripRight cs = cs := by
  induction cs with
  | nil => rfl
  | cons c cs ih =>
    cases cs with
    | nil => simp [stripRight, H c rfl]
    | cons d ds =>
      rw [List.getLast?_cons_cons] at H
      rw [stripRight, ih H]

theorem stripRight_of_blank (H : ∀ c ∈ cs, isBlank c = true) : stripRight cs = [] := by
  induction cs with
  | nil => rfl
  | cons c cs ih =>
    obtain ⟨hc, hcs⟩ := List.forall_mem_cons.mp H
    rw [stripRight, ih hcs]
    exact if_pos hc

theorem stripRight_append {r : List Char} (hr : ∀ c ∈ r, isBlank c = true) :
    stripRight (cs ++ r) = stripRight cs := by
  induction cs with
  | nil => exact stripRight_of_blank hr
  | cons c cs ih => rw [List.cons_append, stripRight, ih, stripRight]

/-- Blanks set around a text without blanks at its ends are what stripping takes off. -/
theorem strip_padded {l r : List Char} (hl : ∀ c ∈ l, isBlank c = true)
    (hr : ∀ c ∈ r, isBlank c = true) (hhead : ∀ c ∈ cs.head?, isBlank c = false)
    (hlast : ∀ c ∈ cs.getLast?, isBlank c = false) : strip (l ++ (cs ++ r)) = cs := by
  rw [strip, List.dropWhile_append_of_pos hl]
  cases cs with
  | nil =>
    rw [List.nil_append, List.dropWhile_eq_nil_iff.mpr hr, stripRight]
  | cons c cs =>
    rw [List.cons_append, List.dropWhile_cons_of_neg (by simp [hhead c rfl]), ← List.cons_append,
      stripRight_append hr, stripRight_eq_self hlast]

/-- The text `t` is `s` with blanks set around it. -/
def Padded (s t : String) : Prop :=
  ∃ l r : List Char, (∀ c ∈ l, isBlank c = true) ∧ (∀ c ∈ r, isBlank c = true) ∧
    t.toList = l ++ (s.toList ++ r)

theorem Padded.refl (s : String) : Padded s s :=
  ⟨[], [], by simp, by simp, by simp⟩

theorem Padded.strip_eq (H : Padded s t) (hs : Trimmed s) : strip t.toList = s.toList := by
  obtain ⟨l, r, hl, hr, ht⟩ := H
  rw [ht, strip_padded hl hr hs.1 hs.2]

theorem Padded.trim_eq (H : Padded s t) (hs : Trimmed s) : trim t = s := by
  rw [trim, H.strip_eq hs, String.ofList_toList]

theorem trimmed_of_not_blank (H : ∀ c ∈ cs, isBlank c = false) : Trimmed (String.ofList cs) := by
  rw [Trimmed, String.toList_ofList]
  exact ⟨fun c hc => H c (List.mem_of_head? hc), fun c hc => H c (List.mem_of_getLast? hc)⟩

theorem strip_of_not_blank (H : ∀ c ∈ cs, isBlank c = false) : strip cs = cs := by
  have hstrip := (Padded.refl _).strip_eq (trimmed_of_not_blank H)
  rwa [String.toList_ofList] at hstrip

theorem trimmed_trim (s : String) : Trimmed (trim s) := by
  rw [Trimmed, trim, String.toList_ofList, strip]
  refine ⟨fun c hc => ?_, getLast?_stripRight⟩
  have hhead := List.head?_dropWhile_not isBlank s.toList
  rw [head?_stripRight c hc] at hhead
  exact hhead

theorem trim_eq_self (H : Trimmed s) : trim s = s :=
  (Padded.refl s).trim_eq H

/-! ### Blanks apart from the rest -/

/-- What the end loses are blanks. -/
theorem exists_append_stripRight (cs : List Char) :
    ∃ r, (∀ c ∈ r, isBlank c = true) ∧ cs = stripRight cs ++ r := by
  induction cs with
  | nil => exact ⟨[], by simp, rfl⟩
  | cons c cs ih =>
    obtain ⟨r, hr, hcs⟩ := ih
    rw [stripRight]
    split
    · rename_i hnil
      rw [hnil, List.nil_append] at hcs
      by_cases hc : isBlank c = true
      · exact ⟨c :: cs, List.forall_mem_cons.mpr ⟨hc, hcs ▸ hr⟩, by rw [if_pos hc, List.nil_append]⟩
      · exact ⟨cs, hcs ▸ hr, by rw [if_neg hc, List.singleton_append]⟩
    · rename_i d ds heq
      refine ⟨r, hr, ?_⟩
      rw [List.cons_append, ← heq, ← hcs]

theorem stripRight_append_cons (hc : isBlank c = false) :
    stripRight (l ++ c :: r) = l ++ c :: stripRight r := by
  induction l with
  | nil =>
    rw [List.nil_append, List.nil_append, stripRight]
    split
    · rename_i hnil
      rw [hnil, if_neg (by simp [hc])]
    · rename_i d ds heq
      rw [heq]
  | cons d l ih =>
    rw [List.cons_append, stripRight, ih]
    cases l <;> rfl

theorem dropWhile_append_cons (hc : isBlank c = false) :
    (l ++ c :: r).dropWhile isBlank = l.dropWhile isBlank ++ c :: r := by
  rw [List.dropWhile_append]
  split
  · rename_i hnil
    rw [List.isEmpty_iff.mp hnil, List.nil_append, List.dropWhile_cons_of_neg (by simp [hc])]
  · rfl

/-- What stands in the middle keeps the blanks around it. -/
theorem strip_append_cons (hc : isBlank c = false) :
    strip (l ++ c :: r) = l.dropWhile isBlank ++ c :: stripRight r := by
  rw [strip, dropWhile_append_cons hc, stripRight_append_cons hc]

theorem padded_trim (t : String) : Padded (trim t) t := by
  obtain ⟨r, hr, hcs⟩ := exists_append_stripRight (t.toList.dropWhile isBlank)
  refine ⟨t.toList.takeWhile isBlank, r, fun c hc => List.mem_takeWhile_imp hc, hr, ?_⟩
  rw [trim, String.toList_ofList, strip, ← hcs, List.takeWhile_append_dropWhile]

theorem trim_eq_iff : trim t = s ↔ Trimmed s ∧ Padded s t := by
  constructor
  · rintro rfl
    exact ⟨trimmed_trim t, padded_trim t⟩
  · rintro ⟨hs, ht⟩
    exact ht.trim_eq hs

theorem strip_eq_nil_iff : strip cs = [] ↔ ∀ c ∈ cs, isBlank c = true := by
  constructor
  · intro hnil
    obtain ⟨l, r, hl, hr, hcs⟩ := padded_trim (String.ofList cs)
    rw [trim, String.toList_ofList, String.toList_ofList, hnil, List.nil_append] at hcs
    exact hcs ▸ fun c hc => (List.mem_append.mp hc).elim (hl c) (hr c)
  · intro hcs
    rw [strip, List.dropWhile_eq_nil_iff.mpr hcs, stripRight]

theorem strip_append {r : List Char} (hr : ∀ c ∈ r, isBlank c = true) :
    strip (cs ++ r) = strip cs := by
  rw [strip, strip, List.dropWhile_append]
  split
  · rename_i hnil
    rw [List.isEmpty_iff.mp hnil, List.dropWhile_eq_nil_iff.mpr hr]
  · exact stripRight_append hr

theorem strip_stripRight : strip (stripRight cs) = strip cs := by
  obtain ⟨r, hr, hcs⟩ := exists_append_stripRight cs
  rw [← strip_append hr, ← hcs]

theorem strip_dropWhile : strip (cs.dropWhile isBlank) = strip cs := by
  rw [strip, List.dropWhile_idempotent, strip]

end NodeDisks.Text
