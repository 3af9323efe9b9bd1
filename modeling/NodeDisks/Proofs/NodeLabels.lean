import NodeDisks.NodeLabels
import NodeDisks.Proofs.Text

/-!
Labels as text. A text is cut into segments at its commas. Blank segments are passed over; any other
one has to bind a key to a value (`Binds`) or is at fault (`Offends`), and no segment is two of these
(`segment_cases`, `Binds.read_eq`, `Offends.read_eq`). So a text is read unless a segment is at fault,
and the last segment of a key is the one that counts.

A map is written without commas and without equals signs in its keys, in any order and with blanks at
will; reading finds it again (`labels_read`).
-/

namespace NodeDisks.NodeLabels

open Text (strip isBlank)

def segments (s : String) : List (List Char) := s.toList.splitOn ','

/-- Nothing but blanks. -/
def Blank (seg : List Char) : Prop := ∀ c ∈ seg, isBlank c = true

/-- The characters are the text, which has no blanks at its ends, and blanks around it. -/
def Encloses (cs : List Char) (s : String) : Prop :=
  Text.Trimmed s ∧ Text.Padded s (String.ofList cs)

/-- The segment gives the key a value; the first equals sign stands between them. -/
inductive Binds : List Char → String → String → Prop where
  | entry {l r : List Char} {key value : String} : '=' ∉ l → ¬Blank l → Encloses l key →
    Encloses r value → Binds (l ++ '=' :: r) key value

/-- The segment is at fault, with what is said about it. -/
inductive Offends : List Char → Error → Prop where
  | noSign {seg : List Char} {part : String} : '=' ∉ seg → ¬Blank seg → Encloses seg part →
    Offends seg (.configuration (.labelForm part))
  | noKey {l r : List Char} {part : String} : Blank l → Encloses (l ++ '=' :: r) part →
    Offends (l ++ '=' :: r) (.configuration (.labelKey part))

/-- The segment is blank or gives a key a value. -/
def Sound (seg : List Char) : Prop := Blank seg ∨ ∃ key value, Binds seg key value

/-- The last of the segments that give the key a value gives it this one. -/
def BindsLast (segs : List (List Char)) (key value : String) : Prop :=
  ∃ before seg after, segs = before ++ seg :: after ∧ Binds seg key value ∧
    ∀ later ∈ after, ∀ other, ¬Binds later key other

/-- The fault is that of the first segment at fault. -/
def OffendsFirst (segs : List (List Char)) (e : Error) : Prop :=
  ∃ before seg after, segs = before ++ seg :: after ∧ (∀ earlier ∈ before, Sound earlier) ∧
    Offends seg e

/-- The key is not empty, and neither text has blanks at its ends or a character in it that would end
it too early. -/
structure Writable (entry : String × String) : Prop where
  named : entry.1 ≠ ""
  keyTrimmed : Text.Trimmed entry.1
  valueTrimmed : Text.Trimmed entry.2
  noSign : '=' ∉ entry.1.toList
  noComma : ',' ∉ entry.1.toList ∧ ',' ∉ entry.2.toList

/-- A map of which every entry can be written; no key is in it twice. -/
structure Plain (m : NodeLabels) : Prop where
  distinct : (m.map Prod.fst).Nodup
  writable : ∀ entry ∈ m, Writable entry

/-- The segments are the entries in turn, with any blanks around keys and values, and blank segments
at will. -/
inductive Writes : List (List Char) → NodeLabels → Prop where
  | nil : Writes [] []
  | blank {seg : List Char} {segs : List (List Char)} {m : NodeLabels} : Blank seg →
    Writes segs m → Writes (seg :: segs) m
  | entry {l r : List Char} {segs : List (List Char)} {key value : String} {m : NodeLabels} :
    Text.Padded key (String.ofList l) → Text.Padded value (String.ofList r) → Writes segs m →
    Writes ((l ++ '=' :: r) :: segs) ((key, value) :: m)

/-- The text is the map written in some order. -/
def Renders (s : String) (m : NodeLabels) : Prop :=
  ∃ segs m', m'.Perm m ∧ Writes segs m' ∧ s.toList = [','].intercalate segs

/-- How a text is read. -/
structure Reads (s : String) : Prop where
  ok_iff : (∃ labels, parse s = .ok labels) ↔ ∀ seg ∈ segments s, Sound seg
  error_iff : ∀ e, parse s = .error e ↔ OffendsFirst (segments s) e
  lookup_iff : ∀ labels, parse s = .ok labels → ∀ key value,
    labels.lookup key = some value ↔ BindsLast (segments s) key value
  rendered : ∀ m, Plain m → Renders s m →
    ∃ labels, parse s = .ok labels ∧ ∀ key, labels.lookup key = m.lookup key

variable {s key value key' value' : String} {seg l r cs : List Char} {segs : List (List Char)}
  {e : Error} {entries m labels : NodeLabels}

/-! ### A segment -/

theorem encloses_iff : Encloses cs s ↔ s = String.ofList (strip cs) := by
  rw [Encloses, ← Text.trim_eq_iff, Text.trim, String.toList_ofList, eq_comm]

theorem encloses_strip (cs : List Char) : Encloses cs (String.ofList (strip cs)) :=
  encloses_iff.mpr rfl

theorem strip_ne_nil (hseg : ¬Blank seg) : strip seg ≠ [] := mt Text.strip_eq_nil_iff.mp hseg

theorem sign_not_mem_of_blank (hl : Blank l) : '=' ∉ l := fun hsign => by cases hl _ hsign

theorem not_blank_append_sign : ¬Blank (l ++ '=' :: r) :=
  fun hblank => sign_not_mem_of_blank hblank (by simp)

/-- Stripping a segment leaves the first equals sign where it is, between the two sides. -/
theorem splitOnce_strip (hl : '=' ∉ l) : Text.splitOnce '=' (strip (l ++ '=' :: r)) =
    some (l.dropWhile isBlank, Text.stripRight r) := by
  have hdrop : '=' ∉ l.dropWhile isBlank := mt ((List.dropWhile_suffix isBlank).subset ·) hl
  rw [Text.strip_append_cons (by rfl), Text.splitOnce_append hdrop]

theorem read_of_noSign (hseg : '=' ∉ seg) : binding? (strip seg) =
    .error (.configuration (.labelForm (String.ofList (strip seg)))) := by
  have hsplit : Text.splitOnce '=' (strip seg) = none := by
    rw [Option.eq_none_iff_forall_ne_some]
    rintro ⟨l, r⟩ hsplit
    have hstrip := (Text.eq_append_of_splitOnce hsplit).1
    exact hseg (Text.mem_of_mem_strip (hstrip ▸ by simp))
  rw [binding?, hsplit]

theorem read_append_sign (hl : '=' ∉ l) : binding? (strip (l ++ '=' :: r)) =
    if (strip l).isEmpty then
      .error (.configuration (.labelKey (String.ofList (strip (l ++ '=' :: r)))))
    else .ok (String.ofList (strip l), String.ofList (strip r)) := by
  rw [binding?, splitOnce_strip hl]
  simp only [Text.strip_dropWhile, Text.strip_stripRight]

theorem Binds.read_eq (H : Binds seg key value) : binding? (strip seg) = .ok (key, value) := by
  obtain ⟨hl, hblank, hkey, hvalue⟩ := H
  rw [read_append_sign hl, if_neg (by simpa using strip_ne_nil hblank), encloses_iff.mp hkey,
    encloses_iff.mp hvalue]

theorem Offends.read_eq (H : Offends seg e) : binding? (strip seg) = .error e := by
  cases H with
  | noSign hseg _ hpart => rw [read_of_noSign hseg, encloses_iff.mp hpart]
  | noKey hl hpart =>
    rw [read_append_sign (sign_not_mem_of_blank hl), Text.strip_eq_nil_iff.mpr hl,
      encloses_iff.mp hpart]
    rfl

theorem Binds.not_blank (H : Binds seg key value) : ¬Blank seg := by
  cases H with
  | entry => exact not_blank_append_sign

theorem Offends.not_blank (H : Offends seg e) : ¬Blank seg := by
  cases H with
  | noSign _ hseg _ => exact hseg
  | noKey => exact not_blank_append_sign

theorem segment_cases (seg : List Char) :
    Blank seg ∨ (∃ key value, Binds seg key value) ∨ ∃ e, Offends seg e := by
  by_cases hblank : Blank seg
  · exact .inl hblank
  · by_cases hsign : '=' ∈ seg
    · obtain ⟨l, r, rfl, hl⟩ := List.eq_append_cons_of_mem hsign
      by_cases hkey : Blank l
      · exact .inr (.inr ⟨_, .noKey hkey (encloses_strip _)⟩)
      · exact .inr (.inl ⟨_, _, .entry hl hkey (encloses_strip _) (encloses_strip _)⟩)
    · exact .inr (.inr ⟨_, .noSign hsign hblank (encloses_strip _)⟩)

theorem Binds.binds_iff (H : Binds seg key' value') :
    Binds seg key value ↔ key = key' ∧ value = value' := by
  constructor
  · intro H'
    have heq := H'.read_eq.symm.trans H.read_eq
    simpa using heq
  · rintro ⟨rfl, rfl⟩
    exact H

theorem Offends.not_sound (H : Offends seg e) : ¬Sound seg := by
  rintro (hblank | ⟨key, value, hbinds⟩)
  · exact H.not_blank hblank
  · cases H.read_eq.symm.trans hbinds.read_eq

/-! ### The segments in turn -/

/-- The entries of the segments that are not blank. -/
def entries? (segs : List (List Char)) : Except Error NodeLabels :=
  ((segs.map strip).filter fun part => !part.isEmpty).mapM binding?

theorem parse_eq : parse s = (entries? (segments s)).map List.reverse := rfl

theorem entries?_cons_of_blank (hseg : Blank seg) : entries? (seg :: segs) = entries? segs := by
  rw [entries?, List.map_cons, Text.strip_eq_nil_iff.mpr hseg]
  rfl

theorem entries?_cons_of_not_blank (hseg : ¬Blank seg) : entries? (seg :: segs) =
    (do
      let entry ← binding? (strip seg)
      let entries ← entries? segs
      return entry :: entries) := by
  rw [entries?, List.map_cons, List.filter_cons_of_pos (by simpa using strip_ne_nil hseg),
    List.mapM_cons]
  rfl

theorem Binds.entries?_cons (H : Binds seg key value) :
    entries? (seg :: segs) = (entries? segs).map ((key, value) :: ·) := by
  rw [entries?_cons_of_not_blank H.not_blank, H.read_eq]
  cases entries? segs <;> rfl

theorem Offends.entries?_cons (H : Offends seg e) : entries? (seg :: segs) = .error e := by
  rw [entries?_cons_of_not_blank H.not_blank, H.read_eq]
  rfl

/-- The segments that are not blank give these values to these keys, in turn. -/
inductive Lists : List (List Char) → NodeLabels → Prop where
  | nil : Lists [] []
  | blank {seg : List Char} {segs : List (List Char)} {entries : NodeLabels} : Blank seg →
    Lists segs entries → Lists (seg :: segs) entries
  | entry {seg : List Char} {segs : List (List Char)} {key value : String} {entries : NodeLabels} :
    Binds seg key value → Lists segs entries → Lists (seg :: segs) ((key, value) :: entries)

theorem Lists.entries?_eq (H : Lists segs entries) : entries? segs = .ok entries := by
  induction H with
  | nil => rfl
  | blank hseg _ ih => rw [entries?_cons_of_blank hseg, ih]
  | entry hseg _ ih =>
    rw [hseg.entries?_cons, ih]
    rfl

theorem Lists.sound (H : Lists segs entries) : ∀ seg ∈ segs, Sound seg := by
  induction H with
  | nil => exact List.forall_mem_nil _
  | blank hseg _ ih => exact List.forall_mem_cons.mpr ⟨.inl hseg, ih⟩
  | entry hseg _ ih => exact List.forall_mem_cons.mpr ⟨.inr ⟨_, _, hseg⟩, ih⟩

/-- A place in a list is its head, or a place in its tail. -/
theorem exists_place_cons {P : List (List Char) → List Char → List (List Char) → Prop} :
    (∃ before x after, seg :: segs = before ++ x :: after ∧ P before x after) ↔
      P [] seg segs ∨ ∃ before x after, segs = before ++ x :: after ∧ P (seg :: before) x after := by
  constructor
  · rintro ⟨before, x, after, heq, h⟩
    cases before with
    | nil =>
      obtain ⟨rfl, rfl⟩ := List.cons.inj heq
      exact .inl h
    | cons first before =>
      obtain ⟨rfl, rfl⟩ := List.cons.inj heq
      exact .inr ⟨before, x, after, rfl, h⟩
  · rintro (h | ⟨before, x, after, rfl, h⟩)
    · exact ⟨[], seg, segs, rfl, h⟩
    · exact ⟨seg :: before, x, after, rfl, h⟩

theorem not_place_nil {P : List (List Char) → List Char → List (List Char) → Prop} :
    ¬∃ before x after, [] = before ++ x :: after ∧ P before x after := by
  rintro ⟨before, x, after, heq, -⟩
  simp at heq

theorem offendsFirst_cons : OffendsFirst (seg :: segs) e ↔
    Offends seg e ∨ Sound seg ∧ OffendsFirst segs e := by
  rw [OffendsFirst, exists_place_cons]
  refine or_congr (and_iff_right (List.forall_mem_nil _)) ?_
  simp only [List.forall_mem_cons]
  constructor
  · rintro ⟨before, fault, after, hsegs, ⟨hseg, hbefore⟩, hfault⟩
    exact ⟨hseg, before, fault, after, hsegs, hbefore, hfault⟩
  · rintro ⟨hseg, before, fault, after, hsegs, hbefore, hfault⟩
    exact ⟨before, fault, after, hsegs, ⟨hseg, hbefore⟩, hfault⟩

/-- A fault is in the way of the segments after it. -/
theorem OffendsFirst.entries?_eq (H : OffendsFirst segs e) : entries? segs = .error e := by
  induction segs with
  | nil => exact absurd H not_place_nil
  | cons seg segs ih =>
    rcases offendsFirst_cons.mp H with hfault | ⟨hblank | ⟨key, value, hbinds⟩, H⟩
    · exact hfault.entries?_cons
    · rw [entries?_cons_of_blank hblank, ih H]
    · rw [hbinds.entries?_cons, ih H]
      rfl

theorem lists_or_offendsFirst (segs : List (List Char)) :
    (∃ entries, Lists segs entries) ∨ ∃ e, OffendsFirst segs e := by
  induction segs with
  | nil => exact .inl ⟨[], .nil⟩
  | cons seg segs ih =>
    rcases segment_cases seg with hblank | ⟨key, value, hbinds⟩ | ⟨e, hfault⟩
    · refine ih.imp (fun ⟨entries, hentries⟩ => ⟨entries, .blank hblank hentries⟩) fun ⟨e, he⟩ => ?_
      exact ⟨e, offendsFirst_cons.mpr (.inr ⟨.inl hblank, he⟩)⟩
    · refine ih.imp (fun ⟨entries, hentries⟩ => ⟨_, .entry hbinds hentries⟩) fun ⟨e, he⟩ => ?_
      exact ⟨e, offendsFirst_cons.mpr (.inr ⟨.inr ⟨_, _, hbinds⟩, he⟩)⟩
    · exact .inr ⟨e, offendsFirst_cons.mpr (.inl hfault)⟩

theorem entries?_eq_ok_iff : entries? segs = .ok entries ↔ Lists segs entries := by
  constructor
  · intro hok
    rcases lists_or_offendsFirst segs with ⟨entries', H⟩ | ⟨e, H⟩
    · cases H.entries?_eq.symm.trans hok
      exact H
    · cases H.entries?_eq.symm.trans hok
  · exact Lists.entries?_eq

theorem entries?_eq_error_iff : entries? segs = .error e ↔ OffendsFirst segs e := by
  constructor
  · intro herror
    rcases lists_or_offendsFirst segs with ⟨entries, H⟩ | ⟨e', H⟩
    · cases H.entries?_eq.symm.trans herror
    · cases H.entries?_eq.symm.trans herror
      exact H
  · exact OffendsFirst.entries?_eq

theorem parse_eq_ok_iff :
    parse s = .ok labels ↔ ∃ entries, Lists (segments s) entries ∧ labels = entries.reverse := by
  simp only [← entries?_eq_ok_iff, parse_eq]
  cases entries? (segments s) <;> simp [Except.map, eq_comm]

theorem parse_eq_error_iff : parse s = .error e ↔ OffendsFirst (segments s) e := by
  rw [← entries?_eq_error_iff, parse_eq]
  cases entries? (segments s) <;> simp [Except.map]

/-! ### Looking a label up -/

theorem lookup_singleton_eq_some_iff :
    List.lookup key [(key', value')] = some value ↔ key = key' ∧ value = value' := by
  rw [List.lookup_cons]
  by_cases hkey : key = key'
  · simp [hkey, eq_comm]
  · simp [hkey, beq_eq_false_iff_ne.mpr hkey]

theorem Lists.lookup_eq_none_iff (H : Lists segs entries) :
    entries.reverse.lookup key = none ↔ ∀ seg ∈ segs, ∀ value, ¬Binds seg key value := by
  induction H with
  | nil => simp
  | blank hseg _ ih =>
    rw [ih, List.forall_mem_cons]
    exact (and_iff_right fun value hbinds => hbinds.not_blank hseg).symm
  | @entry seg _ key' value' _ hseg _ ih =>
    have hhead : List.lookup key [(key', value')] = none ↔ ∀ value, ¬Binds seg key value := by
      simp only [Option.eq_none_iff_forall_ne_some, ne_eq, lookup_singleton_eq_some_iff,
        hseg.binds_iff]
    rw [List.reverse_cons, List.lookup_append, Option.or_eq_none_iff, ih, hhead,
      List.forall_mem_cons, and_comm]

theorem bindsLast_cons : BindsLast (seg :: segs) key value ↔ BindsLast segs key value ∨
    (∀ later ∈ segs, ∀ other, ¬Binds later key other) ∧ Binds seg key value := by
  rw [BindsLast, exists_place_cons, or_comm, and_comm, BindsLast]

theorem Lists.lookup_eq_some_iff (H : Lists segs entries) :
    entries.reverse.lookup key = some value ↔ BindsLast segs key value := by
  induction H with
  | nil => exact iff_of_false (by simp) not_place_nil
  | blank hseg _ ih =>
    rw [ih, bindsLast_cons]
    exact (or_iff_left fun h => h.2.not_blank hseg).symm
  | entry hseg hsegs ih =>
    rw [List.reverse_cons, List.lookup_append, Option.or_eq_some_iff, ih, bindsLast_cons,
      hsegs.lookup_eq_none_iff, lookup_singleton_eq_some_iff, hseg.binds_iff]

/-! ### What is written -/

theorem lookup_eq_some_iff_mem (hm : (m.map Prod.fst).Nodup) :
    m.lookup key = some value ↔ (key, value) ∈ m := by
  constructor
  · intro hlookup
    obtain ⟨before, after, rfl, -⟩ := List.lookup_eq_some_iff.mp hlookup
    simp
  · intro hmem
    obtain ⟨before, after, rfl⟩ := List.append_of_mem hmem
    refine List.lookup_eq_some_iff.mpr ⟨before, after, rfl, fun p hp => ?_⟩
    rw [List.map_append, List.map_cons, List.nodup_append] at hm
    have hne : p.1 ≠ key := hm.2.2 _ (List.mem_map_of_mem hp) _ (.head _)
    simpa using hne.symm

theorem lookup_congr {m' : NodeLabels} (hm : (m.map Prod.fst).Nodup) (hperm : m'.Perm m) :
    m'.lookup key = m.lookup key := by
  have hm' : (m'.map Prod.fst).Nodup := (hperm.map Prod.fst).nodup_iff.mpr hm
  refine Option.ext fun value => ?_
  rw [lookup_eq_some_iff_mem hm, lookup_eq_some_iff_mem hm', hperm.mem_iff]

theorem not_mem_of_padded {c : Char} (hc : isBlank c = false) (hs : c ∉ s.toList)
    (H : Text.Padded s (String.ofList cs)) : c ∉ cs := by
  obtain ⟨l, r, hl, hr, hcs⟩ := H
  rw [String.toList_ofList] at hcs
  subst hcs
  simp only [List.mem_append, not_or]
  refine ⟨fun h => ?_, hs, fun h => ?_⟩
  · cases hc.symm.trans (hl c h)
  · cases hc.symm.trans (hr c h)

theorem Writes.comma_not_mem (H : Writes segs m) (hm : ∀ entry ∈ m, Writable entry) :
    ∀ seg ∈ segs, ',' ∉ seg := by
  induction H with
  | nil => exact List.forall_mem_nil _
  | blank hseg _ ih =>
    refine List.forall_mem_cons.mpr ⟨fun hcomma => ?_, ih hm⟩
    cases hseg _ hcomma
  | entry hkey hvalue _ ih =>
    obtain ⟨hentry, hm⟩ := List.forall_mem_cons.mp hm
    have hl := not_mem_of_padded (by rfl) hentry.noComma.1 hkey
    have hr := not_mem_of_padded (by rfl) hentry.noComma.2 hvalue
    exact List.forall_mem_cons.mpr ⟨by simp [hl, hr], ih hm⟩

theorem Encloses.not_blank (H : Encloses cs s) (hs : s ≠ "") : ¬Blank cs := by
  intro hblank
  rw [encloses_iff.mp H, Text.strip_eq_nil_iff.mpr hblank] at hs
  exact hs rfl

/-- The segment of an entry binds its key to its value. -/
theorem Writable.binds (H : Writable (key, value)) (hkey : Text.Padded key (String.ofList l))
    (hvalue : Text.Padded value (String.ofList r)) : Binds (l ++ '=' :: r) key value :=
  have hl : Encloses l key := ⟨H.keyTrimmed, hkey⟩
  .entry (not_mem_of_padded rfl H.noSign hkey) (hl.not_blank H.named) hl ⟨H.valueTrimmed, hvalue⟩

theorem Writes.lists (H : Writes segs m) (hm : ∀ entry ∈ m, Writable entry) : Lists segs m := by
  induction H with
  | nil => exact .nil
  | blank hseg _ ih => exact .blank hseg (ih hm)
  | entry hkey hvalue _ ih =>
    obtain ⟨hentry, hm⟩ := List.forall_mem_cons.mp hm
    exact .entry (hentry.binds hkey hvalue) (ih hm)

theorem Renders.exists_lists (H : Renders s m) (hm : ∀ entry ∈ m, Writable entry) :
    ∃ entries, entries.Perm m ∧ Lists (segments s) entries := by
  obtain ⟨segs, entries, hperm, hwrites, hs⟩ := H
  have hentries : ∀ entry ∈ entries, Writable entry := fun entry h => hm entry (hperm.subset h)
  refine ⟨entries, hperm, ?_⟩
  rw [segments, hs]
  cases segs with
  | nil =>
    -- A text without segments has one all the same, and it is empty.
    cases hwrites
    exact .blank (List.forall_mem_nil _) .nil
  | cons seg segs =>
    rw [List.splitOn_intercalate ',' (hwrites.comma_not_mem hentries) (List.cons_ne_nil _ _)]
    exact hwrites.lists hentries

theorem exists_parse_of_renders (hm : Plain m) (H : Renders s m) :
    ∃ labels, parse s = .ok labels ∧ ∀ key, labels.lookup key = m.lookup key := by
  obtain ⟨entries, hperm, hlists⟩ := H.exists_lists hm.writable
  refine ⟨entries.reverse, parse_eq_ok_iff.mpr ⟨entries, hlists, rfl⟩, fun key => ?_⟩
  exact lookup_congr hm.distinct (entries.reverse_perm.trans hperm)

theorem exists_parse_iff : (∃ labels, parse s = .ok labels) ↔ ∀ seg ∈ segments s, Sound seg := by
  constructor
  · rintro ⟨labels, hok⟩
    obtain ⟨entries, H, -⟩ := parse_eq_ok_iff.mp hok
    exact H.sound
  · intro hsound
    rcases lists_or_offendsFirst (segments s) with ⟨entries, H⟩ | ⟨e, before, seg, after, hs, -, hseg⟩
    · exact ⟨entries.reverse, parse_eq_ok_iff.mpr ⟨entries, H, rfl⟩⟩
    · exact absurd (hsound seg (hs ▸ by simp)) hseg.not_sound

/-- A text is read by its segments, and reading a written map finds the map. -/
theorem labels_read (s : String) : Reads s where
  ok_iff := exists_parse_iff
  error_iff _ := parse_eq_error_iff
  lookup_iff labels hlabels key value := by
    obtain ⟨entries, H, rfl⟩ := parse_eq_ok_iff.mp hlabels
    exact H.lookup_eq_some_iff
  rendered _ hm H := exists_parse_of_renders hm H

/-- A value keeps its equals signs, and of two values the later one counts. -/
example :
    (parse "zone = a=b ,, disks=4").toOption.map (List.lookup "zone") = some (some "a=b") ∧
      (parse "zone = a=b ,, zone=\tc").toOption.map (List.lookup "zone") = some (some "c") := by
  decide +kernel

end NodeDisks.NodeLabels
