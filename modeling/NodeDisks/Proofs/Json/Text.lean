import NodeDisks.Proofs.Json.Leaves
import NodeDisks.Proofs.Json.Order

/-!
Reading back what is written. Compact and indented text differ only in where white space stands, so
both are instances of one printer, `Layout.chars`, and are read by one proof (`Regular.reads`): by
induction on the value, each item is read up to what follows it, and the items of a bracket in turn
(`items?_bracketed`). What comes back is the value with the entries of its objects sorted by key.
-/

namespace NodeDisks.Json

variable {cs rest gap : List Char} {c : Char}

/-! ### Layouts -/

def Blank (gap : List Char) : Prop := ∀ c ∈ gap, isBlank c

theorem skipBlank_append (H : Blank gap) : skipBlank (gap ++ cs) = skipBlank cs :=
  List.dropWhile_append_of_pos H

theorem skipBlank_cons (H : isBlank c = false) : skipBlank (c :: cs) = c :: cs := by
  rw [skipBlank, List.dropWhile_cons_of_neg (by simp [H])]

/-- The white space of a text: before each item and each closing bracket, by their depth, and behind
the colons. -/
structure Layout where
  gap : Nat → List Char
  behindColon : List Char
  gap_blank : ∀ depth, Blank (gap depth)
  behindColon_blank : Blank behindColon

namespace Layout

def dense : Layout where
  gap _ := []
  behindColon := []
  gap_blank _ _ hc := absurd hc List.not_mem_nil
  behindColon_blank _ hc := absurd hc List.not_mem_nil

def indented : Layout where
  gap := newline
  behindColon := [' ']
  gap_blank depth c hc := by
    simp only [newline, List.mem_cons, List.mem_replicate] at hc
    rcases hc with rfl | ⟨-, rfl⟩ <;> rfl
  behindColon_blank c hc := by
    rw [List.mem_singleton.mp hc]
    rfl

/-- What follows an item: the other items and the closing bracket. -/
def followed (l : Layout) (depth : Nat) (closing : Char) : List (List Char) → List Char
  | [] => l.gap depth ++ [closing]
  | item :: items => ',' :: l.gap (depth + 1) ++ item ++ l.followed depth closing items

def bracketed (l : Layout) (depth : Nat) (opening closing : Char) : List (List Char) → List Char
  | [] => [opening, closing]
  | item :: items => opening :: l.gap (depth + 1) ++ item ++ l.followed depth closing items

mutual

def chars (l : Layout) (depth : Nat) : Json → List Char
  | .null => ['n', 'u', 'l', 'l']
  | .bool true => ['t', 'r', 'u', 'e']
  | .bool false => ['f', 'a', 'l', 's', 'e']
  | .number n => n.render
  | .text s => stringText s
  | .array xs => l.bracketed depth '[' ']' (l.elements (depth + 1) xs)
  | .object es => l.bracketed depth '\x7b' '\x7d' (l.entries (depth + 1) es)

def elements (l : Layout) (depth : Nat) : List Json → List (List Char)
  | [] => []
  | x :: xs => l.chars depth x :: l.elements depth xs

def entries (l : Layout) (depth : Nat) : List (String × Json) → List (List Char)
  | [] => []
  | (key, v) :: es =>
    (stringText key ++ ':' :: l.behindColon ++ l.chars depth v) :: l.entries depth es

end

end Layout

mutual

theorem prettyChars_eq (depth : Nat) : ∀ j, prettyChars depth j = Layout.indented.chars depth j
  | .null | .bool true | .bool false | .number _ | .text _ | .array [] | .object [] => rfl
  | .array (x :: xs) => by
    rw [prettyChars, prettyChars_eq, prettyElements_eq]
    rfl
  | .object ((key, v) :: es) => by
    rw [prettyChars, prettyChars_eq, prettyEntries_eq]
    simp [Layout.chars, Layout.bracketed, Layout.entries]
    rfl

theorem prettyElements_eq (depth : Nat) : ∀ xs, prettyElements depth xs =
    Layout.indented.followed depth ']' (Layout.indented.elements (depth + 1) xs)
  | [] => rfl
  | x :: xs => by
    rw [prettyElements, prettyChars_eq, prettyElements_eq]
    rfl

theorem prettyEntries_eq (depth : Nat) : ∀ es, prettyEntries depth es =
    Layout.indented.followed depth '\x7d' (Layout.indented.entries (depth + 1) es)
  | [] => rfl
  | (key, v) :: es => by
    rw [prettyEntries, prettyChars_eq, prettyEntries_eq]
    simp [Layout.followed, Layout.entries]
    rfl

end

mutual

theorem compactChars_eq (depth : Nat) : ∀ j, compactChars j = Layout.dense.chars depth j
  | .null | .bool true | .bool false | .number _ | .text _ | .array [] | .object [] => rfl
  | .array (x :: xs) => by
    rw [compactChars, compactChars_eq (depth + 1), compactElements_eq depth]
    rfl
  | .object ((key, v) :: es) => by
    rw [compactChars, compactChars_eq (depth + 1), compactEntries_eq depth]
    simp [Layout.chars, Layout.bracketed, Layout.entries]
    rfl

theorem compactElements_eq (depth : Nat) : ∀ xs, compactElements xs =
    Layout.dense.followed depth ']' (Layout.dense.elements (depth + 1) xs)
  | [] => rfl
  | x :: xs => by
    rw [compactElements, compactChars_eq (depth + 1), compactElements_eq depth]
    rfl

theorem compactEntries_eq (depth : Nat) : ∀ es, compactEntries es =
    Layout.dense.followed depth '\x7d' (Layout.dense.entries (depth + 1) es)
  | [] => rfl
  | (key, v) :: es => by
    rw [compactEntries, compactChars_eq (depth + 1), compactEntries_eq depth]
    simp [Layout.followed, Layout.entries]
    rfl

end

/-! ### Items between brackets -/

def IsClosing (c : Char) : Prop := c = ']' ∨ c = '\x7d'

instance : DecidablePred IsClosing :=
  fun c => inferInstanceAs (Decidable (c = ']' ∨ c = '\x7d'))

/-- The text starts with something that is neither white space nor a closing bracket. -/
def Opens (text : List Char) : Prop :=
  ∃ c cs, text = c :: cs ∧ isBlank c = false ∧ ¬IsClosing c

theorem Opens.skipBlank {text : List Char} (H : Opens text) :
    skipBlank (text ++ rest) = text ++ rest := by
  obtain ⟨c, cs, rfl, hblank, -⟩ := H
  rw [List.cons_append, skipBlank_cons hblank]

/-- White space and the text are read as `a`, up to whatever may follow. -/
structure Reads {α : Type} (item : List Char → Reading α) (text : List Char) (a : α) : Prop where
  opens : Opens text
  reads : ∀ gap rest, Blank gap → Closed rest → item (gap ++ text ++ rest) = some (a, rest)

section Items

variable {α : Type} {item : List Char → Reading α} {opening closing : Char} {l : Layout}
  {depth most : Nat} {text : List Char} {texts : List (List Char)} {x : α} {xs : List α}

theorem IsClosing.not_blank (H : IsClosing c) : isBlank c = false := by
  rcases H with rfl | rfl <;> rfl

theorem IsClosing.ne_comma (H : IsClosing c) : c ≠ ',' := by
  rcases H with rfl | rfl <;> decide

theorem closed_cons (H : isBlank c ∨ c = ',' ∨ IsClosing c) : Closed (c :: rest) := by
  rintro d ⟨⟩
  exact H

theorem closed_followed (H : IsClosing closing) :
    Closed (l.followed depth closing texts ++ rest) := by
  cases texts with
  | cons text texts => exact closed_cons (.inr (.inl rfl))
  | nil =>
    cases hgap : l.gap depth with
    | nil =>
      simp only [Layout.followed, hgap, List.nil_append, List.cons_append]
      exact closed_cons (.inr (.inr H))
    | cons c cs =>
      simp only [Layout.followed, hgap, List.cons_append]
      exact closed_cons (.inl (l.gap_blank depth c (by simp [hgap])))

theorem length_lt_followed : texts.length < (l.followed depth closing texts).length := by
  induction texts with
  | nil => simp [Layout.followed]
  | cons text texts ih =>
    simp only [Layout.followed, List.length_append, List.length_cons]
    omega

theorem someItems?_followed (hclosing : IsClosing closing) (hx : Reads item text x)
    (hxs : List.Forall₂ (Reads item) texts xs) (hmost : texts.length < most) (hgap : Blank gap) :
    someItems? item closing most (gap ++ text ++ (l.followed depth closing texts ++ rest)) =
      some (x :: xs, rest) := by
  induction hxs generalizing text x most gap with
  | nil =>
    obtain ⟨most, rfl⟩ := Nat.exists_eq_add_one_of_ne_zero (Nat.ne_zero_of_lt hmost)
    rw [someItems?, hx.reads _ _ hgap (closed_followed hclosing), Layout.followed,
      List.append_assoc]
    simp only [skipBlank_append (l.gap_blank depth), List.singleton_append,
      skipBlank_cons hclosing.not_blank, if_neg hclosing.ne_comma, if_pos]
  | cons hx' _ ih =>
    obtain ⟨most, rfl⟩ := Nat.exists_eq_add_one_of_ne_zero (Nat.ne_zero_of_lt hmost)
    have hcomma : isBlank ',' = false := rfl
    have hrest := ih hx' (Nat.lt_of_succ_lt_succ hmost) (l.gap_blank (depth + 1))
    rw [someItems?, hx.reads _ _ hgap (closed_followed hclosing)]
    simp only [Layout.followed, List.cons_append, skipBlank_cons hcomma, if_pos,
      List.append_assoc] at hrest ⊢
    simp [hrest]

theorem items?_bracketed (hclosing : IsClosing closing) (hxs : List.Forall₂ (Reads item) texts xs) :
    ∃ cs, l.bracketed depth opening closing texts ++ rest = opening :: cs ∧
      items? item closing cs = some (xs, rest) := by
  cases hxs with
  | nil =>
    refine ⟨closing :: rest, rfl, ?_⟩
    simp [items?, skipBlank_cons hclosing.not_blank]
  | @cons text x texts xs hx hxs =>
    obtain ⟨c, cs, rfl, hblank, hc⟩ := hx.opens
    have hne : c ≠ closing := by
      rintro rfl
      exact hc hclosing
    obtain ⟨inside, hinside⟩ : ∃ inside, inside =
        l.gap (depth + 1) ++ (c :: cs) ++ (l.followed depth closing texts ++ rest) := ⟨_, rfl⟩
    have hlength : texts.length < inside.length := by
      have := @length_lt_followed closing l depth texts
      rw [hinside]
      simp only [List.length_append]
      omega
    have hskip : skipBlank inside = c :: (cs ++ (l.followed depth closing texts ++ rest)) := by
      rw [hinside, List.append_assoc, skipBlank_append (l.gap_blank _), List.cons_append,
        skipBlank_cons hblank]
    have hsome : someItems? item closing inside.length inside = some (x :: xs, rest) := by
      nth_rewrite 2 [hinside]
      exact someItems?_followed hclosing hx hxs hlength (l.gap_blank (depth + 1))
    refine ⟨inside, by simp [hinside, Layout.bracketed], ?_⟩
    rw [items?, hskip]
    simp only [if_neg hne]
    exact hsome

end Items

/-! ### Sorted entries -/

variable {key : String} {v : Json} {es sorted : List (String × Json)}

theorem insertEntry_perm (H : key ∉ sorted.map Prod.fst) :
    (insertEntry key v sorted).Perm ((key, v) :: sorted) := by
  induction sorted with
  | nil => exact .refl _
  | cons e sorted ih =>
    obtain ⟨hne, hsorted⟩ := not_or.mp (List.mem_cons.not.mp H)
    rw [insertEntry, if_neg hne]
    split
    · exact .refl _
    · exact ((ih hsorted).cons e).trans (.swap _ _ _)

theorem foldl_insertEntry_perm (H : ((es ++ sorted).map Prod.fst).Nodup) :
    (es.foldl (fun sorted (k, v) => insertEntry k v sorted) sorted).Perm (es ++ sorted) := by
  induction es generalizing sorted with
  | nil => exact .refl _
  | cons e es ih =>
    have hkey : e.1 ∉ sorted.map Prod.fst := by
      intro hmem
      have hnew : e.1 ∉ (es ++ sorted).map Prod.fst := (List.nodup_cons.mp H).1
      rw [List.map_append] at hnew
      exact hnew (List.mem_append_right _ hmem)
    have hperm : (es ++ insertEntry e.1 e.2 sorted).Perm (e :: es ++ sorted) :=
      ((insertEntry_perm hkey).append_left es).trans List.perm_middle
    exact (ih ((hperm.map _).nodup_iff.mpr H)).trans hperm

/-! ### Values -/

/-- Numbers are natural, no object has a key twice, and containers nest at most so deep. -/
inductive Regular : Nat → Json → Prop where
  | null {depth} : Regular depth .null
  | bool {depth} (b : Bool) : Regular depth (.bool b)
  | natural {depth} (n : UInt64) : Regular depth (Json.natural n)
  | text {depth} (s : String) : Regular depth (.text s)
  | array {depth} {xs : List Json} : (∀ x ∈ xs, Regular depth x) → Regular (depth + 1) (.array xs)
  | object {depth} {es : List (String × Json)} : (es.map Prod.fst).Nodup →
      (∀ e ∈ es, Regular depth e.2) → Regular (depth + 1) (.object es)

section Values

variable {l : Layout} {limit depth : Nat} {text : List Char} {j : Json} {xs ys : List Json}

theorem value?_append (H : Blank gap) : value? false limit (gap ++ cs) = value? false limit cs := by
  rw [value?, value?, skipBlank_append H]

/-- White space in front of a value needs no thought. -/
theorem reads_value (hopens : Opens text)
    (H : ∀ rest, Closed rest → value? false limit (text ++ rest) = some (j, rest)) :
    Reads (value? false limit) text j where
  opens := hopens
  reads gap rest hgap hrest := by
    rw [List.append_assoc, value?_append hgap]
    exact H rest hrest

theorem reads_null : Reads (value? false limit) ['n', 'u', 'l', 'l'] .null := by
  have hopens : Opens ['n', 'u', 'l', 'l'] := ⟨_, _, rfl, rfl, by decide⟩
  refine reads_value hopens fun rest _ => ?_
  rw [value?, hopens.skipBlank]
  rfl

theorem reads_bool : ∀ b, Reads (value? false limit) (l.chars depth (.bool b)) (.bool b)
  | true => by
    have hopens : Opens ['t', 'r', 'u', 'e'] := ⟨_, _, rfl, rfl, by decide⟩
    refine reads_value hopens fun rest _ => ?_
    rw [value?, Layout.chars, hopens.skipBlank]
    rfl
  | false => by
    have hopens : Opens ['f', 'a', 'l', 's', 'e'] := ⟨_, _, rfl, rfl, by decide⟩
    refine reads_value hopens fun rest _ => ?_
    rw [value?, Layout.chars, hopens.skipBlank]
    rfl

theorem opens_stringText (s : String) : Opens (stringText s) :=
  ⟨_, _, rfl, rfl, by decide⟩

theorem reads_text (s : String) : Reads (value? false limit) (stringText s) (.text s) := by
  refine reads_value (opens_stringText s) fun rest _ => ?_
  obtain ⟨cs, hcs, hbody⟩ := @stringBody?_stringText rest s
  rw [value?, (opens_stringText s).skipBlank, hcs]
  simp [hbody]

theorem not_isBlank_of_isDigit (H : c.isDigit) : isBlank c = false := by
  by_contra hblank
  rcases isBlank_iff.mp (by simpa using hblank) with rfl | rfl | rfl | rfl <;> cases H

theorem reads_natural (n : UInt64) :
    Reads (value? false limit) (Nat.toDigits 10 n.toNat) (natural n) := by
  obtain ⟨d, ds, hds, hd⟩ := exists_toDigits_eq_cons n.toNat
  have hopens : Opens (Nat.toDigits 10 n.toNat) := by
    refine ⟨d, ds, hds, not_isBlank_of_isDigit hd, ?_⟩
    rintro (rfl | rfl) <;> cases hd
  refine reads_value hopens fun rest hrest => ?_
  have hnumber := number?_toDigits n hrest
  rw [value?, hopens.skipBlank]
  split
  case h_7 => simp [hnumber, natural]
  -- The other cases start with a letter, a quote or a bracket.
  all_goals
    rename_i heq
    rw [hds, List.cons_append] at heq
    obtain ⟨rfl, -⟩ := List.cons.inj heq
    cases hd

theorem reads_array (H : List.Forall₂ (Reads (value? false limit)) (l.elements (depth + 1) xs) ys) :
    Reads (value? false (limit + 1)) (l.chars depth (.array xs)) (.array ys) := by
  have hopens : Opens (l.chars depth (.array xs)) := by
    cases xs <;> exact ⟨_, _, rfl, rfl, by decide⟩
  refine reads_value hopens fun rest _ => ?_
  obtain ⟨cs, hcs, hitems⟩ := @items?_bracketed rest _ _ '[' ']' l depth _ _ (by decide) H
  rw [value?, hopens.skipBlank, Layout.chars, hcs]
  simp [hitems]

/-- An entry of an object, as the reader of values with one level less sees it. -/
def entryOf? (limit : Nat) : List Char → Reading (String × Json) :=
  pair? false fun key cs => (value? false limit cs).map fun (v, r) => ((key, v), r)

theorem reads_object {es es' : List (String × Json)}
    (H : List.Forall₂ (Reads (entryOf? limit)) (l.entries (depth + 1) es) es') :
    Reads (value? false (limit + 1)) (l.chars depth (.object es)) (ofEntries es') := by
  have hopens : Opens (l.chars depth (.object es)) := by
    cases es <;> exact ⟨_, _, rfl, rfl, by decide⟩
  refine reads_value hopens fun rest _ => ?_
  obtain ⟨cs, hcs, hitems⟩ :=
    @items?_bracketed rest _ _ '\x7b' '\x7d' l depth _ _ (by decide) H
  rw [entryOf?] at hitems
  rw [value?, hopens.skipBlank, Layout.chars, hcs]
  simp [hitems]

theorem reads_entry {v v' : Json} (key : String)
    (H : Reads (value? false limit) (l.chars depth v) v') :
    Reads (entryOf? limit) (stringText key ++ ':' :: l.behindColon ++ l.chars depth v)
      (key, v') where
  opens := ⟨_, _, rfl, rfl, by decide⟩
  reads gap rest hgap hrest := by
    have hcolon : isBlank ':' = false := rfl
    obtain ⟨cs, hcs, hbody⟩ :=
      @stringBody?_stringText (':' :: (l.behindColon ++ l.chars depth v ++ rest)) key
    have htext : gap ++ (stringText key ++ ':' :: l.behindColon ++ l.chars depth v) ++ rest =
        gap ++ (stringText key ++ ':' :: (l.behindColon ++ l.chars depth v ++ rest)) := by simp
    rw [entryOf?, pair?, htext, skipBlank_append hgap, (opens_stringText key).skipBlank, hcs]
    simp only [hbody, skipBlank_cons hcolon, H.reads _ _ l.behindColon_blank hrest, Option.map_some]

theorem exists_elements (H : ∀ x ∈ xs, ∀ depth, ∃ x', Alike x x' ∧
    Reads (value? false limit) (l.chars depth x) x') : ∃ ys, List.Forall₂ Alike xs ys ∧
      List.Forall₂ (Reads (value? false limit)) (l.elements depth xs) ys := by
  induction xs with
  | nil => exact ⟨[], .nil, .nil⟩
  | cons x xs ih =>
    obtain ⟨y, halike, hreads⟩ := H x (.head _) depth
    obtain ⟨ys, hxs, hys⟩ := ih fun x hx => H x (.tail _ hx)
    exact ⟨y :: ys, .cons halike hxs, .cons hreads hys⟩

theorem exists_entries (H : ∀ e ∈ es, ∀ depth, ∃ v', Alike e.2 v' ∧
    Reads (value? false limit) (l.chars depth e.2) v') : ∃ es', List.Forall₂ EntryAlike es es' ∧
      List.Forall₂ (Reads (entryOf? limit)) (l.entries depth es) es' := by
  induction es with
  | nil => exact ⟨[], .nil, .nil⟩
  | cons e es ih =>
    obtain ⟨v', halike, hreads⟩ := H e (.head _) depth
    obtain ⟨es', hes, hes'⟩ := ih fun e he => H e (.tail _ he)
    exact ⟨(e.1, v') :: es', .cons (.mk halike) hes, .cons (reads_entry e.1 hreads) hes'⟩

theorem keys_eq_of_entryAlike {es' : List (String × Json)} (H : List.Forall₂ EntryAlike es es') :
    es'.map Prod.fst = es.map Prod.fst := by
  induction H with
  | nil => rfl
  | cons he _ ih =>
    cases he
    rw [List.map_cons, List.map_cons, ih]

theorem Regular.reads (l : Layout) (H : Regular limit j) (depth : Nat) :
    ∃ j', Alike j j' ∧ Reads (value? false limit) (l.chars depth j) j' := by
  induction H generalizing depth with
  | null => exact ⟨.null, .null, reads_null⟩
  | bool b => exact ⟨.bool b, .bool b, reads_bool b⟩
  | natural n => exact ⟨Json.natural n, .refl _, reads_natural n⟩
  | text s => exact ⟨.text s, .text s, reads_text s⟩
  | array _ ih =>
    obtain ⟨ys, hxs, hys⟩ := exists_elements ih
    exact ⟨.array ys, .array hxs, reads_array hys⟩
  | object hkeys _ ih =>
    obtain ⟨es', hes, hes'⟩ := exists_entries ih
    have hperm : (es'.foldl (fun sorted (k, v) => insertEntry k v sorted) []).Perm (es' ++ []) :=
      foldl_insertEntry_perm (by rwa [List.append_nil, keys_eq_of_entryAlike hes])
    rw [List.append_nil] at hperm
    exact ⟨ofEntries es', .object hes hperm.symm, reads_object hes'⟩

theorem Reads.parse? (H : Reads (value? false maxDepth) text j) :
    Json.parse? (String.ofList text) = some j := by
  have hclosed : Closed [] := by simp [Closed]
  have hread := H.reads [] [] (by simp [Blank]) hclosed
  rw [List.nil_append, List.append_nil] at hread
  simp [Json.parse?, hread, Json.skipBlank]

theorem Regular.parse?_compact (H : Regular maxDepth j) :
    ∃ j', Alike j j' ∧ Json.parse? j.compact = some j' := by
  obtain ⟨j', halike, hreads⟩ := H.reads .dense 0
  rw [compact, compactChars_eq 0]
  exact ⟨j', halike, hreads.parse?⟩

theorem Regular.parse?_pretty (H : Regular maxDepth j) :
    ∃ j', Alike j j' ∧ Json.parse? j.pretty = some j' := by
  obtain ⟨j', halike, hreads⟩ := H.reads .indented 0
  rw [pretty, prettyChars_eq]
  exact ⟨j', halike, hreads.parse?⟩

end Values

end NodeDisks.Json
