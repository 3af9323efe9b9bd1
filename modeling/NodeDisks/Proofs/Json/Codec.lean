import NodeDisks.Json.Record
import NodeDisks.Proofs.Json.Text

/-!
Writers and readers that fit together. A reader fits a writer when it takes whatever is `Alike` to what
was written back to where it came from (`Rereads`): then the order of entries does not matter, and the
value may have been through a text (`RoundTrips`). For a record this is shown entry by entry
(`Restores`). What every field of a record keeps holds of all that is read (`readEntries_keeps`).
-/

namespace NodeDisks

namespace Json

variable {α : Type} {write : α → Json} {read : Json → Except DecodeError α} {j : Json}

/-- What is written is read again, with the entries of its objects in any order. -/
def Rereads (write : α → Json) (read : Json → Except DecodeError α) : Prop :=
  ∀ a j, Alike (write a) j → read j = .ok a

theorem rereads_text : Rereads .text toText := by
  intro s j H
  rw [alike_text_iff.mp H, toText]

theorem rereads_natural : Rereads natural toWord := by
  intro n j H
  rw [alike_natural_iff.mp H]
  rfl

theorem toNamed_text {values : List (String × α)} {name : String} {a : α}
    (H : values.lookup name = some a) : toNamed values (.text name) = .ok a := by
  simp [toNamed, toVariant, H]

theorem rereads_named {values : List (String × α)} {name : α → String}
    (H : ∀ a, values.lookup (name a) = some a) :
    Rereads (fun a => .text (name a)) (toNamed values) := by
  intro a j hj
  rw [alike_text_iff.mp hj]
  exact toNamed_text (H a)

theorem toOption_of_ne_null (H : j ≠ .null) : toOption read j = (read j).map some := by
  cases j with
  | null => exact absurd rfl H
  | _ => rfl

theorem eq_null_of_alike (H : Alike j .null) : j = .null := by
  cases H
  rfl

/-- A value that may be missing, when none of its values is written as `null`. -/
theorem rereads_option {write? : Option α → Json} (H : Rereads write read)
    (hnone : write? none = .null) (hsome : ∀ a, write? (some a) = write a)
    (hnull : ∀ a, write a ≠ .null) : Rereads write? (toOption read) := by
  intro a j hj
  cases a with
  | none =>
    rw [hnone, alike_null_iff] at hj
    rw [hj, toOption]
  | some a =>
    rw [hsome] at hj
    have hne : j ≠ .null := by
      rintro rfl
      exact hnull a (eq_null_of_alike hj)
    rw [toOption_of_ne_null hne, H a j hj]
    rfl

theorem rereads_text? : Rereads ofText? (toOption toText) :=
  rereads_option rereads_text rfl (fun _ => rfl) fun _ => nofun

theorem rereads_natural? : Rereads ofNatural? (toOption toWord) :=
  rereads_option rereads_natural rfl (fun _ => rfl) fun _ => nofun

theorem mapM_eq_ok {as : List α} {ys : List Json}
    (H : List.Forall₂ (fun a j => read j = .ok a) as ys) : ys.mapM read = .ok as := by
  induction H with
  | nil => rfl
  | cons ha _ ih =>
    rw [List.mapM_cons, ha, ih]
    rfl

theorem mapM_of_alike {as : List α} {ys : List Json}
    (H : ∀ a ∈ as, ∀ j, Alike (write a) j → read j = .ok a)
    (hys : List.Forall₂ Alike (as.map write) ys) : ys.mapM read = .ok as := by
  rw [List.forall₂_map_left_iff] at hys
  exact mapM_eq_ok (((List.forall₂_and_left _ _).mpr ⟨H, hys⟩).imp fun _ j h => h.1 j h.2)

theorem rereads_list (H : Rereads write read) :
    Rereads (fun as => .array (as.map write)) (toList read) := by
  intro as j hj
  obtain ⟨ys, hys, rfl⟩ := alike_array_iff.mp hj
  exact mapM_of_alike (fun a _ => H a) hys

theorem rereads_texts : Rereads texts (toList toText) :=
  rereads_list rereads_text

theorem rereads_names {values : List (String × α)} {name : α → String}
    (H : ∀ a, values.lookup (name a) = some a) :
    Rereads (fun as => texts (as.map name)) (toList (toNamed values)) := by
  intro as j hj
  simp only [texts, List.map_map] at hj
  exact rereads_list (rereads_named H) as j hj

theorem alike_single {key : String} {v : Json} (H : Alike (.object [(key, v)]) j) :
    ∃ v', Alike v v' ∧ j = .object [(key, v')] := by
  obtain ⟨es', es'', halike, hperm, rfl⟩ := alike_object_iff.mp H
  obtain _ | ⟨⟨hv⟩, ⟨⟩⟩ := halike
  rw [List.perm_singleton.mp hperm.symm]
  exact ⟨_, hv, rfl⟩

/-! ### Regular values -/

attribute [simp] Regular.null Regular.bool Regular.natural Regular.text

theorem regular_object_iff {limit : Nat} {es : List (String × Json)} :
    Regular (limit + 1) (.object es) ↔ (es.map Prod.fst).Nodup ∧ ∀ e ∈ es, Regular limit e.2 := by
  constructor
  · rintro ⟨⟩
    exact ⟨‹_›, ‹_›⟩
  · rintro ⟨hkeys, hes⟩
    exact .object hkeys hes

theorem Regular.list {limit : Nat} (H : ∀ a, Regular limit (write a)) (as : List α) :
    Regular (limit + 1) (.array (as.map write)) := by
  refine .array fun x hx => ?_
  obtain ⟨a, -, rfl⟩ := List.mem_map.mp hx
  exact H a

@[simp] theorem regular_texts {limit : Nat} (ss : List String) : Regular (limit + 1) (texts ss) :=
  Regular.list Regular.text ss

@[simp] theorem regular_ofText? {limit : Nat} : ∀ s, Regular limit (ofText? s)
  | none => .null
  | some s => .text s

@[simp] theorem regular_ofNatural? {limit : Nat} : ∀ n, Regular limit (ofNatural? n)
  | none => .null
  | some n => .natural n

/-! ### Codecs -/

section Texts

variable {a : α}

theorem parse?_compact_of_alike (H : Regular maxDepth j)
    (hread : ∀ j', Alike j j' → read j' = .ok a) :
    ∃ j', parse? j.compact = some j' ∧ read j' = .ok a := by
  obtain ⟨j', halike, hparse⟩ := H.parse?_compact
  exact ⟨j', hparse, hread j' halike⟩

theorem parse?_pretty_of_alike (H : Regular maxDepth j)
    (hread : ∀ j', Alike j j' → read j' = .ok a) :
    ∃ j', parse? j.pretty = some j' ∧ read j' = .ok a := by
  obtain ⟨j', halike, hparse⟩ := H.parse?_pretty
  exact ⟨j', hparse, hread j' halike⟩

end Texts

/-- Values, compact texts and indented texts are all read again. -/
structure RoundTrips (write : α → Json) (read : Json → Except DecodeError α) : Prop where
  value : Rereads write read
  compact : ∀ a, ∃ j, parse? (write a).compact = some j ∧ read j = .ok a
  pretty : ∀ a, ∃ j, parse? (write a).pretty = some j ∧ read j = .ok a

theorem Rereads.roundTrips (H : Rereads write read) (hregular : ∀ a, Regular maxDepth (write a)) :
    RoundTrips write read where
  value := H
  compact a := parse?_compact_of_alike (hregular a) (H a)
  pretty a := parse?_pretty_of_alike (hregular a) (H a)

end Json

namespace Record

section Entries

variable {V ρ α : Type} {cell : Json → V} {r : Record V ρ} {fields : List (Field V ρ)}
  {f : Field V ρ} {key : String} {v j : Json} {es es' entries : List (String × Json)}
  {must may : List String} {x y : ρ} {a a₀ : α} {read : V → Except DecodeError α}
  {set : α → ρ → ρ}

/-- Whatever is `Alike` to these entries turns `x` into `y`; the fields seen by then include `must`, and
fields other than `may` may have been seen before. The record is read from `cell`s that hold the
values. -/
def Restores (cell : Json → V) (fields : List (Field V ρ)) (must may : List String)
    (es : List (String × Json)) (x y : ρ) : Prop :=
  ∀ es' seen, List.Forall₂ Json.EntryAlike es es' → may.Nodup → (∀ k ∈ may, k ∉ seen) →
    ∃ seen₁, readEntries fields (es'.map fun e => (e.1, cell e.2)) seen x = .ok (seen₁, y) ∧
      seen ⊆ seen₁ ∧ must ⊆ seen₁

theorem Restores.nil : Restores cell fields [] [] [] x x := by
  intro es' seen hes' _ _
  cases hes'
  exact ⟨seen, rfl, List.Subset.refl _, List.nil_subset _⟩

/-- One entry and the field that it belongs to. -/
theorem Restores.cons (hf : fields.find? (·.answersTo key) = some f)
    (hread : f.read = fun v x => (read v).map fun a => set a x)
    (H : ∀ v', Json.Alike v v' → read (cell v') = .ok a)
    (hes : Restores cell fields must may es (set a x) y) :
    Restores cell fields (f.key :: must) (f.key :: may) ((key, v) :: es) x y := by
  intro es' seen hes' hnodup hmay
  obtain _ | ⟨⟨hv⟩, hes'⟩ := hes'
  have hfresh : f.key ∉ seen := hmay _ (.head _)
  obtain ⟨seen₁, hreads, hseen, hmust⟩ :=
    hes _ _ hes' (List.nodup_cons.mp hnodup).2 (not_seen_behind hnodup hmay)
  refine ⟨seen₁, ?_, fun k hk => hseen (.tail _ hk), List.cons_subset.mpr ⟨hseen (.head _), hmust⟩⟩
  simp [readEntries, hf, hfresh, hread, H _ hv, Except.map, hreads]

/-- An entry that is left out when it would change nothing. -/
theorem Restores.cons_optional (hentries : entries = [(key, v)] ∨ entries = [] ∧ a = a₀)
    (hf : fields.find? (·.answersTo key) = some f)
    (hread : f.read = fun v x => (read v).map fun a => set a x)
    (H : ∀ v', Json.Alike v v' → read (cell v') = .ok a) (hset : set a₀ x = x)
    (hes : Restores cell fields must may es (set a x) y) :
    Restores cell fields must (f.key :: may) (entries ++ es) x y := by
  intro es' seen hes' hnodup hmay
  rcases hentries with rfl | ⟨rfl, rfl⟩
  · obtain ⟨seen₁, hreads, hseen, hmust⟩ := hes.cons hf hread H es' seen hes' hnodup hmay
    exact ⟨seen₁, hreads, hseen, (List.cons_subset.mp hmust).2⟩
  · rw [hset] at hes
    exact hes es' seen hes' (List.nodup_cons.mp hnodup).2 (List.forall_mem_cons.mp hmay).2

/-- The order in which a record was written does not matter. -/
theorem Restores.ofCells (H : Restores cell r.fields must may es r.draft y) (hmay : may.Nodup)
    (hmust : ∀ f ∈ r.fields, f.required → f.key ∈ must)
    (hfields : r.fields.Pairwise Field.Commutes) (hes' : Json.Alike (.object es) (.object es')) :
    r.ofEntries (es'.map fun e => (e.1, cell e.2)) = .ok y := by
  obtain ⟨es₁, es₂, halike, hperm, heq⟩ := Json.alike_object_iff.mp hes'
  cases heq
  obtain ⟨seen, hreads, -, hseen⟩ := H es₁ [] halike hmay fun _ _ => List.not_mem_nil
  apply ofEntries_perm hfields (hperm.map _)
  exact ofEntries_eq_ok_iff.mpr
    ⟨seen, ⟨seen, hreads, fun _ => .rfl⟩, fun f hf hrequired => hseen (hmust f hf hrequired)⟩

theorem Restores.ofEntries {r : Record Json ρ} (H : Restores id r.fields must may es r.draft y)
    (hmay : may.Nodup) (hmust : ∀ f ∈ r.fields, f.required → f.key ∈ must)
    (hfields : r.fields.Pairwise Field.Commutes) (hes' : Json.Alike (.object es) (.object es')) :
    r.ofEntries es' = .ok y := by
  have hcells := H.ofCells hmay hmust hfields hes'
  rwa [show (es'.map fun e => (e.1, id e.2)) = es' from List.map_id es'] at hcells

theorem Restores.ofJson {r : Record Json ρ} (H : Restores id r.fields must may es r.draft y)
    (hmay : may.Nodup) (hmust : ∀ f ∈ r.fields, f.required → f.key ∈ must)
    (hfields : r.fields.Pairwise Field.Commutes) (hj : Json.Alike (.object es) j) :
    r.ofJson j = .ok y := by
  obtain ⟨_, es', _, _, rfl⟩ := Json.alike_object_iff.mp hj
  exact H.ofEntries hmay hmust hfields hj

end Entries

/-! ### Invariants -/

section Invariants

variable {V ρ : Type} {r : Record V ρ} {fields : List (Field V ρ)} {P : ρ → Prop} {Q : V → Prop}
  {es : List (String × V)} {vs : List V} {seen : List String} {x y : ρ}

theorem readEntries_keeps (H : ∀ f ∈ fields, ∀ v x y, Q v → P x → f.read v x = .ok y → P y)
    (hes : ∀ e ∈ es, Q e.2) (hx : P x) {t : List String × ρ}
    (hread : readEntries fields es seen x = .ok t) : P t.2 := by
  induction es generalizing seen x with
  | nil =>
    cases hread
    exact hx
  | cons e es ih =>
    obtain ⟨he, hes⟩ := List.forall_mem_cons.mp hes
    rw [readEntries] at hread
    split at hread
    · exact ih hes hx hread
    · rename_i f hfind
      split at hread
      · cases hread
      · split at hread
        · cases hread
        · rename_i z hz
          exact ih hes (H f (List.mem_of_find?_eq_some hfind) _ _ _ he hx hz) hread

theorem readElements_keeps {given place : Nat}
    (H : ∀ f ∈ fields, ∀ v x y, Q v → P x → f.read v x = .ok y → P y)
    (hvs : ∀ v ∈ vs, Q v) (hx : P x) (hread : readElements r given place fields vs x = .ok y) :
    P y := by
  induction fields generalizing vs x place with
  | nil =>
    cases vs <;> cases hread
    exact hx
  | cons f fields ih =>
    obtain ⟨hf, hfields⟩ := List.forall_mem_cons.mp H
    cases vs with
    | nil =>
      rw [readElements] at hread
      split at hread
      · cases hread
      · exact ih hfields hvs hx hread
    | cons v vs =>
      obtain ⟨hv, hvs⟩ := List.forall_mem_cons.mp hvs
      rw [readElements] at hread
      split at hread
      · cases hread
      · rename_i z hz
        exact ih hfields hvs (hf _ _ _ hv hx hz) hread

theorem ofEntries_keeps (H : ∀ f ∈ r.fields, ∀ v x y, Q v → P x → f.read v x = .ok y → P y)
    (hes : ∀ e ∈ es, Q e.2) (hdraft : P r.draft) (hread : r.ofEntries es = .ok y) : P y := by
  obtain ⟨_, ⟨_, hentries, _⟩, _⟩ := ofEntries_eq_ok_iff.mp hread
  exact readEntries_keeps H hes hdraft hentries

end Invariants

end Record

end NodeDisks
