import NodeDisks.Proofs.Inventory.Rows
import NodeDisks.Proofs.Inventory.Survey

/-!
Flattening is the pre-order of the trees. Each entry of a flattened forest has a place, the way down to
it by the numbers of children, and the entries are all devices of the forest in the order of their
places (`Preorder`): by induction on the forest, entries below a tree are put under its number, and
those of later trees have higher numbers. A survey lists the usable rows, with their signatures merged
at every depth, in that order (`survey_preorder`).
-/

namespace NodeDisks.Inventory

/-! ### Places in a forest -/

/-- The device at a place of a forest: the number of its tree, and level by level the number of the
child to go on with. -/
def at? (ds : List Device) : (place : List Nat) → Option Device
  | [] => none
  | i :: place =>
    match ds[i]? with
    | none => none
    | some d => if place = [] then some d else at? d.children place

mutual

/-- The number of devices in a tree. -/
def count : Device → Nat
  | { children, .. } => 1 + countAll children

def countAll : List Device → Nat
  | [] => 0
  | d :: ds => count d + countAll ds

end

/-- Behind the entry of a device come those below it, as many as there are, and the others come before
it or after these. -/
def Together (entries : List (List Nat × Device)) (p : List Nat) (d : Device) : Prop :=
  ∃ before below after, entries = before ++ (p, d) :: below ++ after ∧
    below.length + 1 = count d ∧ (∀ x ∈ below, p <+: x.1) ∧
      ∀ x, x ∈ before ∨ x ∈ after → ¬p <+: x.1

/-- The entries are the devices of a forest in pre-order, each with its place. -/
structure Preorder (forest : List Device) (entries : List (List Nat × Device)) : Prop where
  /-- A place comes before those below it, and those below it before its next sibling. -/
  sorted : entries.Pairwise fun x y => x.1 < y.1
  node : ∀ p d, (p, d) ∈ entries ↔ at? forest p = some d
  length : entries.length = countAll forest
  /-- What stands on a device is entered directly behind it, and all of it there. -/
  subtree : ∀ p d, (p, d) ∈ entries → Together entries p d
  /-- The entry of a device that stands on another one is its copy inside the other entry. -/
  copy : ∀ p q a d, (p, a) ∈ entries → (p ++ q, d) ∈ entries → q ≠ [] → at? a.children q = some d
  /-- Without what stands on others, the trees are left. -/
  tops : (entries.filter fun x => x.1.length = 1).map Prod.snd = forest

/-- A device with its signature in place of what it had, and so all that stands on it. -/
inductive Merged (found : Signatures) : Device → Device → Prop where
  | signed {d : Device} {t : String} {ds : List Device} : found.Signs d t →
    List.Forall₂ (Merged found) d.children ds →
    Merged found d { d with fsType := t, children := ds }
  | unsigned {d : Device} {ds : List Device} : (¬∃ t, found.Signs d t) →
    List.Forall₂ (Merged found) d.children ds → Merged found d { d with children := ds }

variable {d x : Device} {ds ds' : List Device} {p q : List Nat} {i k : Nat} {found : Signatures}

theorem count_eq (d : Device) : count d = 1 + countAll d.children := by
  cases d
  rfl

/-- An entry of what stands on tree `i`, as one of the whole forest. -/
def descend (i : Nat) (x : List Nat × Device) : List Nat × Device := (i :: x.1, x.2)

@[simp] theorem descend_fst (x : List Nat × Device) : (descend i x).1 = i :: x.1 := rfl

@[simp] theorem descend_snd (x : List Nat × Device) : (descend i x).2 = x.2 := rfl

mutual

/-- A tree flattened, with places counted from its top. -/
def placed : Device → List (List Nat × Device)
  | d@{ children, .. } => ([], d) :: placedAll 0 children

def placedAll (i : Nat) : List Device → List (List Nat × Device)
  | [] => []
  | d :: ds => (placed d).map (descend i) ++ placedAll (i + 1) ds

end

theorem placed_eq (d : Device) : placed d = ([], d) :: placedAll 0 d.children := by
  cases d
  rfl

/-- Induction over forests, by what stands on the first device and by the other trees. -/
@[elab_as_elim]
theorem forestInduction {motive : List Device → Prop} (nil : motive [])
    (cons : ∀ d ds, motive d.children → motive ds → motive (d :: ds)) (ds : List Device) :
    motive ds := by
  have hforest (ds : List Device) (hds : ∀ d ∈ ds, motive d.children) : motive ds := by
    induction ds with
    | nil => exact nil
    | cons d ds ih => exact cons d ds (hds d (.head _)) (ih fun d hd => hds d (.tail _ hd))
  have hchildren (d : Device) : motive d.children := by
    induction d using Device.stackInduction with
    | step d ih => exact hforest d.children ih
  exact hforest ds fun d _ => hchildren d

theorem placedAll_cons : placedAll i (d :: ds) =
    ([i], d) :: (placedAll 0 d.children).map (descend i) ++ placedAll (i + 1) ds := by
  rw [placedAll, placed_eq, List.map_cons, descend]

theorem map_snd_placedAll : (placedAll i ds).map Prod.snd = flattenedAll ds := by
  induction ds using forestInduction generalizing i with
  | nil => rfl
  | cons d ds ihd ihds =>
    rw [placedAll_cons, flattenedAll, flattened_eq, ← @ihd 0, ← @ihds (i + 1)]
    simp

theorem length_placedAll : (placedAll i ds).length = countAll ds := by
  induction ds using forestInduction generalizing i with
  | nil => rfl
  | cons d ds ihd ihds =>
    rw [placedAll_cons, countAll, count_eq, ← @ihd 0, ← @ihds (i + 1)]
    simp
    omega

@[simp] theorem at?_first : at? (d :: ds) [0] = some d := rfl

@[simp] theorem at?_below : at? (d :: ds) (0 :: k :: p) = at? d.children (k :: p) := rfl

@[simp] theorem at?_beside : at? (d :: ds) ((k + 1) :: p) = at? ds (k :: p) := rfl

theorem mem_placedAll_iff : (p, d) ∈ placedAll i ds ↔
    ∃ k place, p = (i + k) :: place ∧ at? ds (k :: place) = some d := by
  induction ds using forestInduction generalizing i p with
  | nil => simp [placedAll, at?]
  | cons d' ds ihd ihds =>
    rw [placedAll_cons, List.cons_append, List.mem_cons, List.mem_append, List.mem_map, ihds]
    constructor
    · rintro (htop | ⟨⟨p', x⟩, hmem, heq⟩ | ⟨k, place, rfl, hd⟩)
      · cases htop
        exact ⟨0, [], rfl, rfl⟩
      · cases heq
        obtain ⟨k, place, rfl, hd⟩ := ihd.mp hmem
        exact ⟨0, (0 + k) :: place, rfl, by simpa using hd⟩
      · exact ⟨k + 1, place, by simp [Nat.add_comm, Nat.add_left_comm], hd⟩
    · rintro ⟨k, place, rfl, hd⟩
      rcases k with - | k
      · rcases place with - | ⟨k, place⟩
        · cases hd
          exact .inl rfl
        · refine .inr (.inl ⟨(k :: place, d), ihd.mpr ⟨k, place, by simp, hd⟩, rfl⟩)
      · exact .inr (.inr ⟨k, place, by simp [Nat.add_comm, Nat.add_left_comm], hd⟩)

/-- The places in a forest whose trees are numbered from `i` on start there or later. -/
theorem exists_of_mem_placedAll {x : List Nat × Device} (hx : x ∈ placedAll i ds) :
    ∃ k place, x.1 = k :: place ∧ i ≤ k := by
  obtain ⟨k, place, hp, -⟩ := mem_placedAll_iff.mp hx
  exact ⟨i + k, place, hp, Nat.le_add_right i k⟩

theorem pairwise_placedAll : (placedAll i ds).Pairwise fun x y => x.1 < y.1 := by
  induction ds using forestInduction generalizing i with
  | nil => exact .nil
  | cons d ds ihd ihds =>
    rw [placedAll_cons, List.cons_append, List.pairwise_cons, List.pairwise_append]
    refine ⟨?_, ?_, ihds, ?_⟩
    · intro x hx
      rcases List.mem_append.mp hx with hx | hx
      · obtain ⟨y, hy, rfl⟩ := List.mem_map.mp hx
        obtain ⟨k, place, hplace, -⟩ := exists_of_mem_placedAll hy
        simp [hplace]
      · obtain ⟨k, place, hplace, hk⟩ := exists_of_mem_placedAll hx
        rw [hplace]
        exact List.cons_lt_cons_iff.mpr (.inl hk)
    · rw [List.pairwise_map]
      exact ihd.imp fun h => List.cons_lt_cons_iff.mpr (.inr ⟨rfl, h⟩)
    · intro x hx y hy
      obtain ⟨x, -, rfl⟩ := List.mem_map.mp hx
      obtain ⟨k, place, hplace, hk⟩ := exists_of_mem_placedAll hy
      rw [hplace]
      exact List.cons_lt_cons_iff.mpr (.inl hk)

/-! ### Subtrees -/

theorem Together.beneath {entries : List (List Nat × Device)} (H : Together entries p d) (i : Nat) :
    Together (entries.map (descend i)) (i :: p) d := by
  obtain ⟨before, below, after, rfl, hlength, hbelow, hothers⟩ := H
  refine ⟨before.map (descend i), below.map (descend i),
    after.map (descend i), by simp [descend], by simpa using hlength, ?_, ?_⟩
  · intro x hx
    obtain ⟨y, hy, rfl⟩ := List.mem_map.mp hx
    exact List.cons_prefix_cons.mpr ⟨rfl, hbelow y hy⟩
  · intro x hx hprefix
    rw [← List.mem_append, ← List.map_append] at hx
    obtain ⟨y, hy, rfl⟩ := List.mem_map.mp hx
    exact hothers y (List.mem_append.mp hy) (List.cons_prefix_cons.mp hprefix).2

theorem Together.append {front entries back : List (List Nat × Device)} (H : Together entries p d)
    (hfront : ∀ x ∈ front, ¬p <+: x.1) (hback : ∀ x ∈ back, ¬p <+: x.1) :
    Together (front ++ entries ++ back) p d := by
  obtain ⟨before, below, after, rfl, hlength, hbelow, hothers⟩ := H
  refine ⟨front ++ before, below, after ++ back, by simp, hlength, hbelow, ?_⟩
  intro x hx
  rw [List.mem_append, List.mem_append] at hx
  rcases hx with (hx | hx) | (hx | hx)
  · exact hfront x hx
  · exact hothers x (.inl hx)
  · exact hothers x (.inr hx)
  · exact hback x hx

theorem together_placedAll (H : (p, d) ∈ placedAll i ds) : Together (placedAll i ds) p d := by
  induction ds using forestInduction generalizing i p with
  | nil => cases H
  | cons d' ds ihd ihds =>
    -- Places among the other trees start with a higher number.
    have hbeside {p : List Nat} : ∀ x ∈ placedAll (i + 1) ds, ¬(i :: p) <+: x.1 := by
      intro x hx hprefix
      obtain ⟨k, place, hplace, hk⟩ := exists_of_mem_placedAll hx
      rw [hplace] at hprefix
      have hhead := (List.cons_prefix_cons.mp hprefix).1
      omega
    rw [placedAll_cons, List.cons_append, List.mem_cons, List.mem_append, List.mem_map] at H
    rcases H with htop | ⟨⟨p', x⟩, hmem, heq⟩ | hmem
    · cases htop
      refine ⟨[], (placedAll 0 d.children).map (descend i), placedAll (i + 1) ds, ?_, ?_, ?_, ?_⟩
      · rw [placedAll_cons, List.nil_append]
      · rw [List.length_map, length_placedAll, count_eq, Nat.add_comm]
      · intro x hx
        obtain ⟨y, -, rfl⟩ := List.mem_map.mp hx
        exact List.cons_prefix_cons.mpr ⟨rfl, List.nil_prefix⟩
      · rintro x (hx | hx)
        · cases hx
        · exact hbeside x hx
    · cases heq
      have hfront : ∀ x ∈ [([i], d')], ¬(i :: p') <+: x.1 := by
        intro x hx hprefix
        obtain ⟨k, place, rfl, -⟩ := exists_of_mem_placedAll hmem
        rw [List.mem_singleton.mp hx] at hprefix
        simpa using hprefix.length_le
      rw [placedAll_cons]
      exact ((ihd hmem).beneath i).append hfront hbeside
    · have hfront : ∀ x ∈ ([i], d') :: (placedAll 0 d'.children).map (descend i), ¬p <+: x.1 := by
        intro x hx hprefix
        obtain ⟨k, place, rfl, hk⟩ := exists_of_mem_placedAll hmem
        have hhead : ∃ place', x.1 = i :: place' := by
          rcases List.mem_cons.mp hx with rfl | hx
          · exact ⟨[], rfl⟩
          · obtain ⟨y, -, rfl⟩ := List.mem_map.mp hx
            exact ⟨y.1, rfl⟩
        obtain ⟨place', hplace'⟩ := hhead
        rw [hplace'] at hprefix
        have := (List.cons_prefix_cons.mp hprefix).1
        omega
      have hbehind : ∀ x ∈ ([] : List (List Nat × Device)), ¬p <+: x.1 := by simp
      have hsplit := (ihds hmem).append hfront hbehind
      rwa [List.append_nil, ← placedAll_cons] at hsplit

/-! ### The order -/

theorem at?_of_ne_nil (hp : p ≠ []) :
    at? ds (i :: p) = ds[i]?.bind fun d => at? d.children p := by
  rw [at?]
  cases ds[i]? with
  | none => rfl
  | some d => exact if_neg hp

/-- What stands on a device is found from there. -/
theorem at?_append (H : at? ds p = some d) (hq : q ≠ []) :
    at? ds (p ++ q) = at? d.children q := by
  induction p generalizing ds with
  | nil => cases H
  | cons i p ih =>
    rw [List.cons_append, at?_of_ne_nil (List.append_ne_nil_of_right_ne_nil p hq)]
    rcases eq_or_ne p [] with rfl | hp
    · have hi : ds[i]? = some d := by
        rw [at?] at H
        cases hi : ds[i]? with
        | none => simp [hi] at H
        | some d' => simpa [hi] using H
      rw [hi, Option.bind_some, List.nil_append]
    · rw [at?_of_ne_nil hp] at H
      obtain ⟨d', hd', H⟩ := Option.bind_eq_some_iff.mp H
      rw [hd', Option.bind_some, ih H]

theorem tops_placedAll :
    ((placedAll i ds).filter fun x => x.1.length = 1).map Prod.snd = ds := by
  induction ds generalizing i with
  | nil => rfl
  | cons d ds ih =>
    have hbelow :
        ((placedAll 0 d.children).map (descend i)).filter (fun x => x.1.length = 1) = [] := by
      rw [List.filter_eq_nil_iff]
      intro x hx
      obtain ⟨y, hy, rfl⟩ := List.mem_map.mp hx
      obtain ⟨k, place, hplace, -⟩ := exists_of_mem_placedAll hy
      simp [hplace]
    rw [placedAll_cons, List.cons_append, List.filter_cons_of_pos (by simp), List.filter_append,
      hbelow, List.map_cons, List.nil_append, ih]

theorem mem_placedAll_zero_iff : (p, d) ∈ placedAll 0 ds ↔ at? ds p = some d := by
  rw [mem_placedAll_iff]
  constructor
  · rintro ⟨k, place, rfl, H⟩
    rwa [Nat.zero_add]
  · intro H
    cases p with
    | nil => cases H
    | cons k place => exact ⟨k, place, by rw [Nat.zero_add], H⟩

theorem preorder_placedAll (ds : List Device) : Preorder ds (placedAll 0 ds) where
  sorted := pairwise_placedAll
  node p d := mem_placedAll_zero_iff
  length := length_placedAll
  subtree p d := together_placedAll
  copy p q a d ha hd hq := by
    rw [mem_placedAll_zero_iff] at ha hd
    rw [← at?_append ha hq, hd]
  tops := tops_placedAll

/-! ### Merged trees -/

theorem merged_mergeInto (found : Signatures) (d : Device) :
    Merged found d (found.mergeInto d) := by
  induction d using Device.stackInduction with
  | step d ih =>
    have hchildren : List.Forall₂ (Merged found) d.children (d.children.map found.mergeInto) := by
      rw [List.forall₂_map_right_iff]
      exact List.forall₂_same.mpr ih
    rw [Signatures.mergeInto_eq]
    cases hfind : found.find? d with
    | none =>
      refine .unsigned (fun ⟨t, ht⟩ => ?_) hchildren
      rw [Signatures.find?_eq_some_iff.mpr ht] at hfind
      cases hfind
    | some t => exact .signed (Signatures.find?_eq_some_iff.mp hfind) hchildren

/-! ### Surveys -/

/-- The tools answer: the signatures are `found`, and the listing has these rows, some of them usable
unless there are none. -/
structure Accepted (h : Host) (only : List String) (found : Signatures) (rows : List Json) :
    Prop where
  signed : ∃ o, h.run (signatureCommand only) = .ok o ∧
    (o.code = some 0 ∧ found = Signatures.ofOutput o.output ∨
      o.code = some nothingFound ∧ found = [])
  listed : ∃ o, h.run (listCommand only) = .ok o ∧ o.code = some 0 ∧ Holds o.output rows
  usable : rows = [] ∨ ∃ raw ∈ rows, ∃ d, Decodes raw d

variable {h : Host} {only : List String} {rows : List Json} {inv : Inventory}

theorem signatures_eq_ok_iff : (signatures h only).value = .ok found ↔
    ∃ o, h.run (signatureCommand only) = .ok o ∧
      (o.code = some 0 ∧ found = Signatures.ofOutput o.output ∨
        o.code = some nothingFound ∧ found = []) := by
  simp only [signatures, Traced.value_bind, Host.value_execute, nothingFound]
  cases h.run (signatureCommand only) with
  | error e => simp
  | ok o =>
    by_cases h0 : o.code = some 0
    · simp [h0, eq_comm]
    · by_cases h2 : o.code = some 2 <;> simp [h0, h2, eq_comm]

theorem Accepted.reads (H : Accepted h only found rows) : Reads h only found (ofRows rows) where
  found := signatures_eq_ok_iff.mpr H.signed
  listed := by
    obtain ⟨o, hrun, hcode, hrows⟩ := H.listed
    exact ⟨o, hrun, success_iff.mpr hcode, ofListing_of_usable hrows H.usable⟩

/-- No survey succeeds with other answers. -/
theorem exists_accepted_of_survey (hinv : (survey h only).value = .ok inv) :
    ∃ found rows, Accepted h only found rows := by
  obtain ⟨found, listing, H, -⟩ := exists_reads_of_survey hinv
  obtain ⟨o, hrun, hsuccess, hlisting⟩ := H.listed
  obtain ⟨rows, hrows, -⟩ := exists_rows_of_ofListing hlisting
  have hholds : Holds o.output rows := rows?_eq_some_iff.mp hrows
  exact ⟨found, rows, signatures_eq_ok_iff.mp H.found, ⟨o, hrun, success_iff.mp hsuccess, hholds⟩,
    ((ofListing_eq_ok_iff hholds).mp hlisting).1⟩

/-- A survey gives the devices of the usable rows, with their signatures, in pre-order. -/
theorem survey_preorder (H : Accepted h only found rows) :
    ∃ inv tops forest entries, (survey h only).value = .ok inv ∧
      Interleaves rows tops inv.badRows ∧ List.Forall₂ (Merged found) tops forest ∧
      inv.devices = entries.map Prod.snd ∧ Preorder forest entries := by
  refine ⟨_, (ofRows rows).devices, found.mergeIntoAll (ofRows rows).devices,
    placedAll 0 (found.mergeIntoAll (ofRows rows).devices), H.reads.survey, interleaves_ofRows rows,
    ?_, map_snd_placedAll.symm, preorder_placedAll _⟩
  rw [Signatures.mergeIntoAll_eq_map, List.forall₂_map_right_iff]
  exact List.forall₂_same.mpr fun d _ => merged_mergeInto found d

/-- A volume on a partition on a disk, and another disk; the partition has a signature. -/
def stackedDisks : MemoryNode :=
  let volume := VolumeSet.listingRow "c" "lvm" []
  let partition := VolumeSet.listingRow "b" "part" [("children", .array [volume])]
  let disk := VolumeSet.listingRow "a" "disk" [("children", .array [partition])]
  let node := VolumeSet.listingNode [disk, VolumeSet.listingRow "d" "disk" []]
  { node with script := node.script.respond "blkid" ⟨some 0, "/dev/b: TYPE=\"ext4\"\n"⟩ }

/-- What stands on the first disk comes before the second one. -/
theorem survey_preorder_stackedDisks : ∃ found rows inv tops forest entries,
    Accepted stackedDisks.host [] found rows ∧ (survey stackedDisks.host []).value = .ok inv ∧
      Interleaves rows tops inv.badRows ∧ List.Forall₂ (Merged found) tops forest ∧
      inv.devices = entries.map Prod.snd ∧ Preorder forest entries ∧
      inv.devices.map (fun d => (d.kname, d.fsType)) =
        [("a", ""), ("b", "ext4"), ("c", ""), ("d", "")] := by
  obtain ⟨inv, hinv, hlisted⟩ := exists_ok_of_map
    (r := (survey stackedDisks.host []).value)
    (f := fun inv => inv.devices.map fun d => (d.kname, d.fsType))
    (b := [("a", ""), ("b", "ext4"), ("c", ""), ("d", "")]) (by decide +kernel)
  obtain ⟨found, rows, H⟩ := exists_accepted_of_survey hinv
  obtain ⟨inv', tops, forest, entries, hinv', hrows, hmerged, hdevices, hentries⟩ :=
    survey_preorder H
  cases Except.ok.inj (hinv.symm.trans hinv')
  exact ⟨found, rows, inv, tops, forest, entries, H, hinv, hrows, hmerged, hdevices, hentries,
    hlisted⟩

end NodeDisks.Inventory
