import Mathlib.Data.List.Forall2
import Mathlib.Data.List.Pairwise
import NodeDisks.Json.Record

/-!
## Any order

The order of entries. Two values are `Alike` when they differ at most in the order of the entries of
their objects, and a record whose fields commute is read from its entries in any order
(`ofEntries_perm`): exchanging two neighbours exchanges two reads, and the fields that were seen are
the same ones.
-/

namespace NodeDisks

namespace Json

mutual

/-- The same value, up to the order of the entries in its objects. -/
inductive Alike : Json → Json → Prop where
  | null : Alike .null .null
  | bool (b : Bool) : Alike (.bool b) (.bool b)
  | number (n : Number) : Alike (.number n) (.number n)
  | text (s : String) : Alike (.text s) (.text s)
  | array {xs ys : List Json} : List.Forall₂ Alike xs ys → Alike (.array xs) (.array ys)
  | object {es es' es'' : List (String × Json)} : List.Forall₂ EntryAlike es es' →
      es'.Perm es'' → Alike (.object es) (.object es'')

inductive EntryAlike : String × Json → String × Json → Prop where
  | mk {key : String} {v v' : Json} : Alike v v' → EntryAlike (key, v) (key, v')

end

mutual

theorem Alike.refl : ∀ j : Json, Alike j j
  | .null => .null
  | .bool b => .bool b
  | .number n => .number n
  | .text s => .text s
  | .array xs => .array (forall₂_alike_refl xs)
  | .object es => .object (forall₂_entryAlike_refl es) (.refl es)

theorem forall₂_alike_refl : ∀ xs : List Json, List.Forall₂ Alike xs xs
  | [] => .nil
  | x :: xs => .cons (.refl x) (forall₂_alike_refl xs)

theorem forall₂_entryAlike_refl : ∀ es : List (String × Json), List.Forall₂ EntryAlike es es
  | [] => .nil
  | (_, v) :: es => .cons (.mk (.refl v)) (forall₂_entryAlike_refl es)

end

variable {j : Json}

@[simp] theorem alike_null_iff : Alike .null j ↔ j = .null :=
  ⟨fun H => by cases H; rfl, fun H => H ▸ .null⟩

@[simp] theorem alike_bool_iff {b : Bool} : Alike (.bool b) j ↔ j = .bool b :=
  ⟨fun H => by cases H; rfl, fun H => H ▸ .bool b⟩

@[simp] theorem alike_natural_iff {n : UInt64} : Alike (natural n) j ↔ j = natural n :=
  ⟨fun H => by cases H; rfl, fun H => H ▸ .refl _⟩

@[simp] theorem alike_text_iff {s : String} : Alike (.text s) j ↔ j = .text s :=
  ⟨fun H => by cases H; rfl, fun H => H ▸ .text s⟩

theorem alike_array_iff {xs : List Json} :
    Alike (.array xs) j ↔ ∃ ys, List.Forall₂ Alike xs ys ∧ j = .array ys := by
  constructor
  · rintro ⟨⟩
    exact ⟨_, ‹_›, rfl⟩
  · rintro ⟨ys, H, rfl⟩
    exact .array H

theorem alike_object_iff {es : List (String × Json)} : Alike (.object es) j ↔
    ∃ es' es'', List.Forall₂ EntryAlike es es' ∧ es'.Perm es'' ∧ j = .object es'' := by
  constructor
  · rintro ⟨⟩
    exact ⟨_, _, ‹_›, ‹_›, rfl⟩
  · rintro ⟨es', es'', H, hperm, rfl⟩
    exact .object H hperm

end Json

variable {V ρ : Type}

namespace Field

/-- Reading the one and then the other comes to the same as the other way round. -/
def Commutes (f g : Field V ρ) : Prop :=
  ∀ v w x z, (∃ y, f.read v x = .ok y ∧ g.read w y = .ok z) ↔
    ∃ y, g.read w x = .ok y ∧ f.read v y = .ok z

instance : Std.Symm (@Commutes V ρ) :=
  ⟨fun _ _ H v w x z => (H w v x z).symm⟩

/-- Fields commute when the parts that they set do. -/
theorem commutes_of_sets {α β : Type} {f g : Field V ρ} {readF : V → Except DecodeError α}
    {readG : V → Except DecodeError β} {setF : α → ρ → ρ} {setG : β → ρ → ρ}
    (hf : f.read = fun v x => (readF v).map fun a => setF a x)
    (hg : g.read = fun v x => (readG v).map fun b => setG b x)
    (H : ∀ a b x, setG b (setF a x) = setF a (setG b x)) : f.Commutes g := by
  intro v w x z
  simp only [hf, hg]
  cases readF v <;> cases readG w <;> simp [Except.map, H]

end Field

namespace Record

variable {r : Record V ρ} {fields : List (Field V ρ)} {f : Field V ρ} {key : String} {v : V}
  {es es' : List (String × V)} {seen seen' seen₁ : List String} {x y : ρ}

/-- The entries turn `x` into `y`; `seen₁` are the fields seen then, in any order. -/
def Yields (fields : List (Field V ρ)) (es : List (String × V)) (seen : List String) (x : ρ)
    (seen₁ : List String) (y : ρ) : Prop :=
  ∃ t, readEntries fields es seen x = .ok (t, y) ∧ ∀ k, k ∈ t ↔ k ∈ seen₁

theorem yields_nil_iff :
    Yields fields [] seen x seen₁ y ↔ x = y ∧ ∀ k, k ∈ seen ↔ k ∈ seen₁ := by
  simp [Yields, readEntries, and_comm, and_assoc]

theorem yields_cons_of_unknown (H : fields.find? (·.answersTo key) = none) :
    Yields fields ((key, v) :: es) seen x seen₁ y ↔ Yields fields es seen x seen₁ y := by
  simp [Yields, readEntries, H]

theorem yields_cons_of_known (H : fields.find? (·.answersTo key) = some f) :
    Yields fields ((key, v) :: es) seen x seen₁ y ↔
      f.key ∉ seen ∧ ∃ z, f.read v x = .ok z ∧ Yields fields es (f.key :: seen) z seen₁ y := by
  simp only [Yields, readEntries, H, List.contains_iff_mem]
  by_cases hseen : f.key ∈ seen
  · simp [hseen]
  · cases f.read v x <;> simp [hseen]

theorem Yields.congr (H : Yields fields es seen x seen₁ y) (hseen : ∀ k, k ∈ seen ↔ k ∈ seen') :
    Yields fields es seen' x seen₁ y := by
  induction es generalizing seen seen' x with
  | nil =>
    obtain ⟨hx, hseen₁⟩ := yields_nil_iff.mp H
    exact yields_nil_iff.mpr ⟨hx, fun k => (hseen k).symm.trans (hseen₁ k)⟩
  | cons e es ih =>
    cases hfind : fields.find? (·.answersTo e.1) with
    | none =>
      rw [yields_cons_of_unknown hfind] at H ⊢
      exact ih H hseen
    | some f =>
      rw [yields_cons_of_known hfind, hseen] at H
      rw [yields_cons_of_known hfind]
      obtain ⟨hnew, z, hread, hrest⟩ := H
      refine ⟨hnew, z, hread, ih hrest fun k => ?_⟩
      rw [List.mem_cons, List.mem_cons, hseen]

/-- Two neighbours may change places. -/
theorem Yields.swap {e e' : String × V} (hfields : fields.Pairwise Field.Commutes)
    (H : Yields fields (e :: e' :: es) seen x seen₁ y) :
    Yields fields (e' :: e :: es) seen x seen₁ y := by
  cases hfind : fields.find? (·.answersTo e.1) with
  | none =>
    rw [yields_cons_of_unknown hfind] at H
    cases hfind' : fields.find? (·.answersTo e'.1) with
    | none => rwa [yields_cons_of_unknown hfind', yields_cons_of_unknown hfind,
        ← yields_cons_of_unknown hfind']
    | some g =>
      rw [yields_cons_of_known hfind'] at H ⊢
      simpa only [yields_cons_of_unknown hfind] using H
  | some f =>
    rw [yields_cons_of_known hfind] at H
    obtain ⟨hf, z, hread, hrest⟩ := H
    cases hfind' : fields.find? (·.answersTo e'.1) with
    | none =>
      rw [yields_cons_of_unknown hfind'] at hrest ⊢
      exact (yields_cons_of_known hfind).mpr ⟨hf, z, hread, hrest⟩
    | some g =>
      obtain ⟨hg, w, hread', hrest⟩ := (yields_cons_of_known hfind').mp hrest
      obtain ⟨hne, hg⟩ := not_or.mp (List.mem_cons.not.mp hg)
      have hcommutes : f.Commutes g := by
        refine hfields.forall (List.mem_of_find?_eq_some hfind)
          (List.mem_of_find?_eq_some hfind') ?_
        rintro rfl
        exact hne rfl
      obtain ⟨z', hread', hread⟩ := (hcommutes _ _ _ _).mp ⟨z, hread, hread'⟩
      have hrest : Yields fields es (f.key :: g.key :: seen) w seen₁ y :=
        hrest.congr fun k => by simp only [List.mem_cons, or_left_comm]
      have hf' : f.key ∉ g.key :: seen := by simp [hf, Ne.symm hne]
      exact (yields_cons_of_known hfind').mpr
        ⟨hg, z', hread', (yields_cons_of_known hfind).mpr ⟨hf', w, hread, hrest⟩⟩

theorem Yields.perm (hfields : fields.Pairwise Field.Commutes) (hperm : es.Perm es')
    (H : Yields fields es seen x seen₁ y) : Yields fields es' seen x seen₁ y := by
  induction hperm generalizing seen x with
  | nil => exact H
  | cons e _ ih =>
    cases hfind : fields.find? (·.answersTo e.1) with
    | none =>
      rw [yields_cons_of_unknown hfind] at H ⊢
      exact ih H
    | some f =>
      rw [yields_cons_of_known hfind] at H ⊢
      obtain ⟨hnew, z, hread, hrest⟩ := H
      exact ⟨hnew, z, hread, ih hrest⟩
  | swap e e' es => exact H.swap hfields
  | trans _ _ ih ih' => exact ih' (ih H)

/-- Keys that come once are not seen again behind the first of them. -/
theorem not_seen_behind {keys : List String} (hnodup : (key :: keys).Nodup)
    (H : ∀ k ∈ key :: keys, k ∉ seen) : ∀ k ∈ keys, k ∉ key :: seen := by
  intro k hk hmem
  rcases List.mem_cons.mp hmem with rfl | hmem
  · exact (List.nodup_cons.mp hnodup).1 hk
  · exact H k (.tail _ hk) hmem

theorem ofEntries_eq_ok_iff : r.ofEntries es = .ok y ↔
    ∃ seen, Yields r.fields es [] r.draft seen y ∧
      ∀ f ∈ r.fields, f.required → f.key ∈ seen := by
  rw [ofEntries]
  cases hread : readEntries r.fields es [] r.draft with
  | error e => simp [Yields, hread]
  | ok t =>
    obtain ⟨seen, z⟩ := t
    have hyields : ∀ seen₁, Yields r.fields es [] r.draft seen₁ y ↔
        z = y ∧ ∀ k, k ∈ seen ↔ k ∈ seen₁ := by simp [Yields, hread, and_comm, and_assoc]
    simp only [hyields]
    cases hfind : r.fields.find? fun f => f.required && !seen.contains f.key with
    | none =>
      have hrequired : ∀ f ∈ r.fields, f.required → f.key ∈ seen := by simpa using hfind
      constructor
      · rintro ⟨⟩
        exact ⟨seen, ⟨rfl, fun k => .rfl⟩, hrequired⟩
      · rintro ⟨-, ⟨rfl, -⟩, -⟩
        rfl
    | some f =>
      have hf : f.required ∧ f.key ∉ seen := by simpa using List.find?_some hfind
      refine iff_of_false nofun ?_
      rintro ⟨seen₁, ⟨-, hseen⟩, hrequired⟩
      exact hf.2 ((hseen _).mpr (hrequired f (List.mem_of_find?_eq_some hfind) hf.1))

theorem ofEntries_perm (hfields : r.fields.Pairwise Field.Commutes) (hperm : es.Perm es')
    (H : r.ofEntries es = .ok y) : r.ofEntries es' = .ok y := by
  obtain ⟨seen, hyields, hrequired⟩ := ofEntries_eq_ok_iff.mp H
  exact ofEntries_eq_ok_iff.mpr ⟨seen, hyields.perm hfields hperm, hrequired⟩

end Record

end NodeDisks

/-!
## Slots

Rows of a record with some freedom in how they are written. A slot says what may stand in a row for one
field: nothing, or one value in one of several forms under one of several keys. When the fields of a
record read whatever the slots let stand (`Covers`), every way to fill the slots, in any order, is read
as the same record (`Covers.ofEntries`).
-/

namespace NodeDisks

/-- What may stand in a row for one field. -/
structure Slot where
  keys : List String
  /-- The field may be left out. -/
  optional : Prop
  form : Json → Prop

/-- These entries fill the slot. -/
inductive Slot.Filled (slot : Slot) : List (String × Json) → Prop where
  | leftOut : slot.optional → Filled slot []
  | value {key : String} {v : Json} : key ∈ slot.keys → slot.form v → Filled slot [(key, v)]

/-- The keys that the field answers to. -/
def Field.spellings {V ρ : Type} (f : Field V ρ) : List String := f.key :: f.aliases

namespace Record

variable {V ρ α : Type} {cell : Json → V} {r : Record V ρ} {fields fs : List (Field V ρ)}
  {f : Field V ρ} {slot : Slot} {slots : List Slot} {parts : List (List (String × Json))}
  {es : List (String × Json)} {seen : List String} {key : String} {x y : ρ} {a a₀ : α}
  {read : V → Except DecodeError α} {set : α → ρ → ρ}

/-- The fields turn the one draft into the other, whatever fills the slots. -/
inductive Covers (cell : Json → V) : List Slot → List (Field V ρ) → ρ → ρ → Prop where
  | nil {x : ρ} : Covers cell [] [] x x
  | cons {slot : Slot} {slots : List Slot} {f : Field V ρ} {fs : List (Field V ρ)} {x y z : ρ} :
    slot.keys = f.spellings → (slot.optional → x = y) →
    (∀ v, slot.form v → f.read (cell v) x = .ok y) → Covers cell slots fs y z →
    Covers cell (slot :: slots) (f :: fs) x z

/-- A field that sets one part of the record, to what it was in the draft when it is left out. -/
theorem Covers.field (hkeys : slot.keys = f.spellings)
    (hread : f.read = fun v x => (read v).map fun a => set a x) (hoptional : slot.optional → a = a₀)
    (hdraft : set a₀ x = x) (H : ∀ v, slot.form v → read (cell v) = .ok a)
    (hrest : Covers cell slots fs (set a x) y) : Covers cell (slot :: slots) (f :: fs) x y := by
  refine .cons hkeys (fun h => ?_) (fun v hv => ?_) hrest
  · rw [hoptional h, hdraft]
  · simp [hread, H v hv, Except.map]

theorem answersTo_iff : f.answersTo key = true ↔ key ∈ f.spellings := by
  rw [Field.answersTo, Field.spellings, Bool.or_eq_true, beq_iff_eq, List.contains_iff_mem,
    List.mem_cons, eq_comm]

/-- No spelling stands for two fields, so a key finds its field. -/
theorem find?_of_mem_spellings (hspellings : (fields.flatMap Field.spellings).Nodup)
    (hf : f ∈ fields) (hkey : key ∈ f.spellings) : fields.find? (·.answersTo key) = some f := by
  induction fields with
  | nil => cases hf
  | cons g fields ih =>
    rw [List.flatMap_cons, List.nodup_append] at hspellings
    obtain ⟨-, hrest, hapart⟩ := hspellings
    rcases List.mem_cons.mp hf with rfl | hf
    · exact List.find?_cons_of_pos (answersTo_iff.mpr hkey)
    · have hg : ¬g.answersTo key = true := fun h =>
        hapart key (answersTo_iff.mp h) key (List.mem_flatMap.mpr ⟨f, hf, hkey⟩) rfl
      rw [List.find?_cons_of_neg (p := fun g : Field V ρ => g.answersTo key) hg, ih hrest hf]

theorem Covers.exists_readEntries (H : Covers cell slots fs x y) (hsub : ∀ f ∈ fs, f ∈ fields)
    (hspellings : (fields.flatMap Field.spellings).Nodup)
    (hkeys : (fs.map (·.key)).Nodup) (hseen : ∀ k ∈ fs.map (·.key), k ∉ seen)
    (hparts : List.Forall₂ Slot.Filled slots parts) :
    ∃ seen₁, readEntries fields (parts.flatten.map fun e => (e.1, cell e.2)) seen x =
      .ok (seen₁, y) := by
  induction H generalizing parts seen with
  | nil =>
    cases hparts
    exact ⟨seen, rfl⟩
  | @cons slot slots f fs x y z hslot hoptional hform _ ih =>
    obtain _ | ⟨hpart, hparts⟩ := hparts
    obtain ⟨hf, hsub⟩ := List.forall_mem_cons.mp hsub
    rw [List.map_cons] at hkeys hseen
    have hrest := (List.nodup_cons.mp hkeys).2
    cases hpart with
    | leftOut h =>
      rw [hoptional h, List.flatten_cons, List.nil_append]
      exact ih hsub hrest (fun k hk => hseen k (.tail _ hk)) hparts
    | @value key v hkey hv =>
      have hfind := find?_of_mem_spellings hspellings hf (hslot ▸ hkey)
      have hfresh : f.key ∉ seen := hseen _ (.head _)
      obtain ⟨seen₁, hread⟩ := ih hsub hrest (not_seen_behind hkeys hseen) hparts
      refine ⟨seen₁, ?_⟩
      rw [List.flatten_cons, List.singleton_append, List.map_cons, readEntries]
      simp only [hfind, List.contains_iff_mem, hfresh, if_false, hform v hv, hread]

theorem Covers.ofEntries (H : Covers cell slots r.fields r.draft y)
    (hspellings : (r.fields.flatMap Field.spellings).Nodup)
    (hkeys : (r.fields.map (·.key)).Nodup) (hoptional : ∀ f ∈ r.fields, f.required = false)
    (hcommute : r.fields.Pairwise Field.Commutes)
    (hparts : List.Forall₂ Slot.Filled slots parts) (hperm : es.Perm parts.flatten) :
    r.ofEntries (es.map fun e => (e.1, cell e.2)) = .ok y := by
  have hentries : ∃ seen, readEntries r.fields (parts.flatten.map fun e => (e.1, cell e.2)) []
      r.draft = .ok (seen, y) :=
    H.exists_readEntries (fun _ hf => hf) hspellings hkeys (fun _ _ => List.not_mem_nil) hparts
  obtain ⟨seen, hread⟩ := hentries
  apply ofEntries_perm hcommute (hperm.symm.map _)
  refine ofEntries_eq_ok_iff.mpr ⟨seen, ⟨seen, hread, fun _ => .rfl⟩, fun f hf hrequired => ?_⟩
  rw [hoptional f hf] at hrequired
  cases hrequired

end Record

end NodeDisks
