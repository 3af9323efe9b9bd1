import NodeDisks.Inventory
import NodeDisks.Proofs.Text

/-!
Lines of signatures, written and read back. A line is cut at its first colon. So an entry comes back as
it is when its node has no colon (`ofLine?_entryLine`); when it has one, what comes back, if anything, is
under the part of the node in front of the colon (`prefix_of_ofLine?`). The map is that of the entries
exactly when no node has a colon (`ofOutput_readBack`), which the names of mapped devices may have.
-/

namespace NodeDisks.Signatures

/-- The line for a node and its signature. -/
def entryLine (e : String × String) : List Char := (e.1 ++ ": TYPE=\"" ++ e.2 ++ "\"").toList

/-- Neither has white space in it, and the signature has no quote. -/
structure PlainEntry (e : String × String) : Prop where
  node : Text.IsWord e.1.toList
  signature : ∀ c ∈ e.2.toList, Text.isBlank c = false ∧ c ≠ '"'

instance (e : String × String) : Decidable (PlainEntry e) :=
  decidable_of_iff
    ((decide (Text.IsWord e.1.toList) && e.2.toList.all fun c => !Text.isBlank c && c != '"') = true)
    (by simpa using ⟨fun ⟨h₁, h₂⟩ => ⟨h₁, h₂⟩, fun ⟨h₁, h₂⟩ => ⟨h₁, h₂⟩⟩)

/-- The output has the lines of the entries, in their order, and else nothing but blank lines. -/
def Shows (output : String) (es : List (String × String)) : Prop :=
  ∃ ls, Text.Lined ls output.toList ∧
    ls.filter (fun l => !l.all Text.isBlank) = es.map entryLine

/-- The last entry for the node has this signature. -/
def LastEntry (es : List (String × String)) (node signature : String) : Prop :=
  ∃ before after, es = before ++ (node, signature) :: after ∧ ∀ e ∈ after, e.1 ≠ node

/-- What the map read from the lines of the entries holds. -/
structure ReadBack (es : List (String × String)) (s : Signatures) : Prop where
  /-- It is the map of the entries exactly when no node has a colon. -/
  full_iff : (∀ node t, s.lookup node = some t ↔ LastEntry es node t) ↔ ∀ e ∈ es, ':' ∉ e.1.toList
  /-- A node with a colon has no signature. -/
  lost : ∀ e ∈ es, ':' ∈ e.1.toList → s.lookup e.1 = none
  /-- A node without one has its own, if there is no longer node that goes on with a colon. -/
  kept : ∀ node, ':' ∉ node.toList → (∀ e ∈ es, ¬node.toList ++ [':'] <+: e.1.toList) →
    ∀ t, s.lookup node = some t ↔ LastEntry es node t

variable {e p : String × String} {es : List (String × String)} {s : Signatures}
  {node t output : String} {line l : List Char}

/-! ### One line -/

theorem entryLine_eq (e : String × String) : entryLine e =
    e.1.toList ++ ':' :: (" TYPE".toList ++ '=' :: '"' :: (e.2.toList ++ ['"'])) := by
  simp [entryLine]

theorem ofLine?_entryLine (H : PlainEntry e) (hcolon : ':' ∉ e.1.toList) :
    ofLine? (entryLine e) = some e := by
  have hkey : '=' ∉ " TYPE".toList := by decide
  have hquote : '"' ∉ e.2.toList := fun h => (H.signature _ h).2 rfl
  have hvalue : ∀ c ∈ '"' :: (e.2.toList ++ ['"']), Text.isBlank c = false := by
    intro c hc
    rcases List.mem_cons.mp hc with rfl | hc
    · rfl
    · rcases List.mem_append.mp hc with hc | hc
      · exact (H.signature c hc).1
      · obtain rfl := List.mem_singleton.mp hc
        rfl
  rw [ofLine?, entryLine_eq, Text.splitOnce_append hcolon]
  simp only [Text.splitOnce_append hkey, Text.strip_of_not_blank hvalue,
    Text.stripChar_quoted hquote, Text.strip_of_not_blank H.node.2, String.ofList_toList]
  rw [if_pos (by decide)]

theorem exists_cut_of_ofLine? (H : ofLine? line = some p) :
    ∃ front rest, line = front ++ ':' :: rest ∧ ':' ∉ front ∧ p.1.toList = Text.strip front := by
  unfold ofLine? at H
  split at H
  · cases H
  · rename_i front rest hcut
    obtain ⟨rfl, hfront⟩ := Text.eq_append_of_splitOnce hcut
    split at H
    · cases H
    · split at H
      · cases H
        exact ⟨front, rest, rfl, hfront, String.toList_ofList⟩
      · cases H

/-- A node with a colon is read, if at all, as what is in front of its first colon. -/
theorem prefix_of_ofLine? (H : PlainEntry e) (hcolon : ':' ∈ e.1.toList)
    (hp : ofLine? (entryLine e) = some p) : p.1.toList ++ [':'] <+: e.1.toList := by
  obtain ⟨front, rest, hline, hfront, hnode⟩ := exists_cut_of_ofLine? hp
  obtain ⟨before, after, hcut, hbefore⟩ := List.eq_append_cons_of_mem hcolon
  have heq : before = front := by
    rw [entryLine_eq, hcut, List.append_assoc, List.cons_append] at hline
    have hsplit := congrArg (Text.splitOnce ':') hline
    rw [Text.splitOnce_append hbefore, Text.splitOnce_append hfront] at hsplit
    exact (Prod.mk.inj (Option.some.inj hsplit)).1
  have hword : ∀ c ∈ front, Text.isBlank c = false := fun c hc =>
    H.node.2 c (hcut ▸ List.mem_append_left _ (heq ▸ hc))
  rw [hnode, Text.strip_of_not_blank hword]
  exact ⟨after, by rw [hcut, heq, List.append_assoc, List.singleton_append]⟩

theorem dropReturn_entryLine (e : String × String) :
    Text.dropReturn (entryLine e) = entryLine e := by
  apply Text.dropReturn_of_not_blank
  intro c hc
  have hquote : (entryLine e).getLast? = some '"' := by
    simp [entryLine_eq, List.getLast?_append, List.getLast?_cons]
  rw [hquote] at hc
  cases hc
  rfl

theorem ofLine?_of_blank (H : l.all Text.isBlank = true) : ofLine? l = none := by
  rw [Option.eq_none_iff_forall_ne_some]
  intro p hp
  obtain ⟨front, rest, rfl, -, -⟩ := exists_cut_of_ofLine? hp
  simp [Text.isBlank] at H

theorem ofLine?_dropReturn (H : l.all Text.isBlank = true ∨ ∃ e, entryLine e = l) :
    ofLine? (Text.dropReturn l) = ofLine? l := by
  rcases H with hblank | ⟨e, rfl⟩
  · have hall : (Text.dropReturn l).all Text.isBlank = true := by
      rw [List.all_eq_true] at hblank ⊢
      exact fun c hc => hblank c (Text.mem_of_mem_dropReturn hc)
    rw [ofLine?_of_blank hall, ofLine?_of_blank hblank]
  · rw [dropReturn_entryLine]

/-! ### All lines -/

theorem ofOutput_of_shows (H : Shows output es) :
    ofOutput output = (es.filterMap (ofLine? ∘ entryLine)).reverse := by
  obtain ⟨ls, hlined, hls⟩ := H
  have hread : ∀ l ∈ ls, ofLine? (Text.dropReturn l) = ofLine? l := by
    intro l hl
    by_cases hblank : l.all Text.isBlank = true
    · exact ofLine?_dropReturn (.inl hblank)
    · have hmem : l ∈ ls.filter fun l => !l.all Text.isBlank :=
        List.mem_filter.mpr ⟨hl, by simpa using hblank⟩
      rw [hls] at hmem
      obtain ⟨e, -, he⟩ := List.mem_map.mp hmem
      exact ofLine?_dropReturn (.inr ⟨e, he⟩)
  have hblanks : ls.filterMap ofLine? =
      (ls.filter fun l => !l.all Text.isBlank).filterMap ofLine? := by
    rw [List.filterMap_filter]
    congr 1
    funext l
    split
    · rfl
    · rename_i hblank
      exact ofLine?_of_blank (by simpa using hblank)
  rw [ofOutput, hlined.filterMap_lines hread, hblanks, hls, List.filterMap_map]

theorem colon_not_mem_of_ofLine? (H : ofLine? line = some p) : ':' ∉ p.1.toList := by
  obtain ⟨front, rest, -, hfront, hnode⟩ := exists_cut_of_ofLine? H
  rw [hnode]
  exact mt Text.mem_of_mem_strip hfront

/-- No node with a colon has a signature, whatever the output. -/
theorem lookup_of_colon (hcolon : ':' ∈ node.toList) : (ofOutput output).lookup node = none := by
  rw [List.lookup_eq_none_iff]
  intro p hp
  obtain ⟨line, -, hline⟩ := List.mem_filterMap.mp (List.mem_reverse.mp hp)
  have hne : node ≠ p.1 := fun h => colon_not_mem_of_ofLine? hline (h ▸ hcolon)
  simpa using hne

theorem lookup_reverse_iff : es.reverse.lookup node = some t ↔ LastEntry es node t := by
  rw [List.lookup_eq_some_iff, LastEntry]
  constructor
  · rintro ⟨after, before, heq, hafter⟩
    refine ⟨before.reverse, after.reverse, ?_, fun e he => ?_⟩
    · rw [← List.reverse_reverse es, heq]
      simp
    · have hne := hafter e (List.mem_reverse.mp he)
      exact fun h => by simp [h] at hne
  · rintro ⟨before, after, rfl, hafter⟩
    refine ⟨after.reverse, before.reverse, by simp, fun e he => ?_⟩
    have hne := hafter e (List.mem_reverse.mp he)
    simpa using Ne.symm hne

/-- What is dropped or renamed does not matter for a node that keeps its own entries. -/
theorem lookup_filterMap {f : String × String → Option (String × String)}
    (hself : ∀ e ∈ es, e.1 = node → f e = some e)
    (hother : ∀ e ∈ es, e.1 ≠ node → ∀ p, f e = some p → p.1 ≠ node) :
    (es.filterMap f).lookup node = es.lookup node := by
  induction es with
  | nil => rfl
  | cons e es ih =>
    obtain ⟨he, hself⟩ := List.forall_mem_cons.mp hself
    obtain ⟨ho, hother⟩ := List.forall_mem_cons.mp hother
    have hrest := ih hself hother
    by_cases hnode : e.1 = node
    · rw [List.filterMap_cons, he hnode, List.lookup_cons, List.lookup_cons, hrest]
    · have hskip : (node == e.1) = false := by simpa using Ne.symm hnode
      rw [List.filterMap_cons, List.lookup_cons, hskip]
      cases hf : f e with
      | none => exact hrest
      | some p =>
        have hp : (node == p.1) = false := by simpa using Ne.symm (ho hnode p hf)
        rw [List.lookup_cons, hp]
        exact hrest

theorem exists_lastEntry {e : String × String} (he : e ∈ es) : ∃ t, LastEntry es e.1 t := by
  have hsome : (es.reverse.lookup e.1).isSome = true :=
    List.lookup_isSome_iff.mpr ⟨e, List.mem_reverse.mpr he, by simp⟩
  obtain ⟨t, ht⟩ := Option.isSome_iff_exists.mp hsome
  exact ⟨t, lookup_reverse_iff.mp ht⟩

theorem LastEntry.mem (H : LastEntry es node t) : (node, t) ∈ es := by
  obtain ⟨before, after, rfl, -⟩ := H
  simp

theorem lookup_ofOutput_iff (hplain : ∀ e ∈ es, PlainEntry e) (H : Shows output es)
    (hcolon : ':' ∉ node.toList) (hlonger : ∀ e ∈ es, ¬node.toList ++ [':'] <+: e.1.toList) :
    (ofOutput output).lookup node = some t ↔ LastEntry es node t := by
  rw [ofOutput_of_shows H, ← List.filterMap_reverse, ← lookup_reverse_iff, lookup_filterMap]
  · rintro e he rfl
    exact ofLine?_entryLine (hplain e (List.mem_reverse.mp he)) hcolon
  · intro e he hne p hp heq
    have hmem := List.mem_reverse.mp he
    by_cases hcut : ':' ∈ e.1.toList
    · exact hlonger e hmem (heq ▸ prefix_of_ofLine? (hplain e hmem) hcut hp)
    · rw [Function.comp, ofLine?_entryLine (hplain e hmem) hcut] at hp
      cases hp
      exact hne heq

/-- The signatures of nodes without a colon are read back in full, and those of the others are not. -/
theorem ofOutput_readBack (hplain : ∀ e ∈ es, PlainEntry e) (H : Shows output es) :
    ReadBack es (ofOutput output) where
  full_iff := by
    constructor
    · intro hfull e he hcolon
      obtain ⟨t, ht⟩ := exists_lastEntry he
      rw [← hfull, lookup_of_colon hcolon] at ht
      cases ht
    · intro hnone node t
      by_cases hcolon : ':' ∈ node.toList
      · rw [lookup_of_colon hcolon]
        exact iff_of_false nofun fun hlast => hnone _ hlast.mem hcolon
      · refine lookup_ofOutput_iff hplain H hcolon fun e he hprefix => hnone e he ?_
        exact hprefix.subset (List.mem_append_right _ (.head _))
  lost _ _ hcolon := lookup_of_colon hcolon
  kept _ hcolon hlonger _ := lookup_ofOutput_iff hplain H hcolon hlonger

/-- Two entries for one node, and two for mapped devices, one with a colon in its name. -/
def mappedEntries : List (String × String) := [("/dev/sdc", "ext4"), ("/dev/mapper/data:1", "xfs"),
  ("/dev/mapper/key=a", "swap"), ("/dev/sdc", "ext2")]

/-- Their lines, with an empty line and one of white space among them. -/
def mappedOutput : String :=
  "/dev/sdc: TYPE=\"ext4\"\n\n/dev/mapper/data:1: TYPE=\"xfs\"\n" ++
    "/dev/mapper/key=a: TYPE=\"swap\"\n \r\n/dev/sdc: TYPE=\"ext2\"\n"

theorem shows_mappedOutput : Shows mappedOutput mappedEntries := by
  let ls := [entryLine ("/dev/sdc", "ext4"), [], entryLine ("/dev/mapper/data:1", "xfs"),
    entryLine ("/dev/mapper/key=a", "swap"), [' ', '\r'], entryLine ("/dev/sdc", "ext2")]
  have hlined : Text.Lined ls (ls.flatMap (· ++ ['\n'])) := Text.lined_flatMap (by decide +kernel)
  have htext : mappedOutput.toList = ls.flatMap (· ++ ['\n']) := by decide +kernel
  exact ⟨ls, htext ▸ hlined, by decide +kernel⟩

theorem ofOutput_readBack_mappedEntries :
    (∀ e ∈ mappedEntries, PlainEntry e) ∧ Shows mappedOutput mappedEntries ∧
      (ofOutput mappedOutput).lookup "/dev/sdc" = some "ext2" ∧
      (ofOutput mappedOutput).lookup "/dev/mapper/key=a" = some "swap" ∧
      (ofOutput mappedOutput).lookup "/dev/mapper/data:1" = none := by
  have hplain : ∀ e ∈ mappedEntries, PlainEntry e := by decide
  have H := ofOutput_readBack hplain shows_mappedOutput
  refine ⟨hplain, shows_mappedOutput, ?_, ?_, H.lost _ (.tail _ (.head _)) (by decide)⟩
  · exact (H.kept _ (by decide) (by decide) _).mpr ⟨[_, _, _], [], rfl, by decide⟩
  · exact (H.kept _ (by decide) (by decide) _).mpr ⟨[_, _], [_], rfl, by decide⟩

/-- It is not so that the map always has what the lines say. -/
theorem not_always_read_in_full : ¬∀ es output, (∀ e ∈ es, PlainEntry e) → Shows output es →
    ∀ node t, (ofOutput output).lookup node = some t ↔ LastEntry es node t := by
  intro hall
  have hlast : LastEntry mappedEntries "/dev/mapper/data:1" "xfs" := ⟨[_], [_, _], rfl, by decide⟩
  rw [← hall _ _ (by decide) shows_mappedOutput, lookup_of_colon (by decide)] at hlast
  cases hlast

end NodeDisks.Signatures
