import NodeDisks.Host.Basic

/-!
Laws of recorded effects. The value of a sequence of steps does not depend on what was done on the
way, so a proof about a result goes from step to step by `value_bind` and does not open `Traced`.
What is done adds up step by step (`effects_bind`), and so does each part of it
(`publications_bind`). A stretch of steps that does things of one kind only is `CommandsOnly` or
`DevicesOnly`.
-/

namespace NodeDisks

/-- What is known of an outcome shows that there is one. -/
theorem exists_ok_of_map {ε α β : Type} {r : Except ε α} {f : α → β} {b : β}
    (hr : r.toOption.map f = some b) : ∃ a, r = .ok a ∧ f a = b := by
  cases r with
  | error e => cases hr
  | ok a => exact ⟨a, rfl, Option.some.inj hr⟩

namespace Effects

variable {a b : Effects}

@[simp] theorem append_none (a : Effects) : a ++ none = a := by
  obtain ⟨commands, opens, closes, events, publications⟩ := a
  change append _ _ = _
  simp [append, none]

@[simp] theorem none_append (a : Effects) : none ++ a = a := rfl

@[simp] theorem opens_append (a b : Effects) : (a ++ b).opens = a.opens ++ b.opens := rfl

@[simp] theorem events_append (a b : Effects) : (a ++ b).events = a.events ++ b.events := rfl

/-- Commands were run, and nothing else was done. -/
def CommandsOnly (a : Effects) : Prop := a = { commands := a.commands }

theorem CommandsOnly.none : none.CommandsOnly := rfl

theorem CommandsOnly.append (ha : a.CommandsOnly) (hb : b.CommandsOnly) :
    (a ++ b).CommandsOnly := by
  rw [CommandsOnly, ha, hb]
  rfl

/-- Devices were opened and closed, and nothing else was done. -/
def DevicesOnly (a : Effects) : Prop := a = { opens := a.opens, closes := a.closes }

theorem DevicesOnly.none : none.DevicesOnly := rfl

theorem DevicesOnly.append (ha : a.DevicesOnly) (hb : b.DevicesOnly) : (a ++ b).DevicesOnly := by
  rw [DevicesOnly, ha, hb]
  rfl

theorem DevicesOnly.events (ha : a.DevicesOnly) : a.events = [] := by rw [ha]

/-- Devices were closed, and nothing else was done. -/
def ClosesOnly (a : Effects) : Prop := a = { closes := a.closes }

theorem ClosesOnly.none : none.ClosesOnly := rfl

theorem ClosesOnly.append (ha : a.ClosesOnly) (hb : b.ClosesOnly) : (a ++ b).ClosesOnly := by
  rw [ClosesOnly, ha, hb]
  rfl

theorem ClosesOnly.devicesOnly (ha : a.ClosesOnly) : a.DevicesOnly := by
  rw [DevicesOnly, ha]

/-- What only closes devices adds no opens to what was done before. -/
theorem ClosesOnly.exists_append {opens : List (Path × OpenAnswer)} {closes : List Path}
    (hb : b.ClosesOnly) :
    ∃ closes', ({ opens, closes } : Effects) ++ b = { opens, closes := closes' } := by
  refine ⟨closes ++ b.closes, ?_⟩
  rw [hb]
  exact congrArg (Effects.mk [] · _ [] []) (List.append_nil opens)

end Effects

namespace Traced

variable {α β : Type}

@[simp] theorem value_pure (a : α) : (Pure.pure a : Traced α).value = a := rfl

@[simp] theorem value_bind (x : Traced α) (f : α → Traced β) :
    (x >>= f).value = (f x.value).value := rfl

theorem effects_bind (x : Traced α) (f : α → Traced β) :
    (x >>= f).effects = x.effects ++ (f x.value).effects := rfl

theorem effects_pure (a : α) : (Pure.pure a : Traced α).effects = Effects.none := rfl

theorem effects_report (es : List Event) : (report es).effects = { events := es } := rfl

theorem publications_bind (x : Traced α) (f : α → Traced β) :
    (x >>= f).effects.publications =
      x.effects.publications ++ (f x.value).effects.publications := rfl

@[simp] theorem publications_pure (a : α) :
    (Pure.pure a : Traced α).effects.publications = [] := rfl

@[simp] theorem value_filterMap (f : α → Traced (Option β)) (as : List α) :
    (filterMap f as).value = as.filterMap fun a => (f a).value := by
  induction as with
  | nil => rfl
  | cons a as ih =>
    simp only [filterMap, value_bind, value_pure, ih, List.filterMap_cons]
    cases (f a).value <;> rfl

theorem opens_filterMap (f : α → Traced (Option β)) (as : List α) :
    (filterMap f as).effects.opens = as.flatMap fun a => (f a).effects.opens := by
  induction as with
  | nil => rfl
  | cons a as ih =>
    rw [filterMap, effects_bind, effects_bind, effects_pure, Effects.append_none,
      Effects.opens_append, ih, List.flatMap_cons]

theorem devicesOnly_filterMap {f : α → Traced (Option β)} {as : List α}
    (H : ∀ a ∈ as, (f a).effects.DevicesOnly) : (filterMap f as).effects.DevicesOnly := by
  induction as with
  | nil => exact .none
  | cons a as ih =>
    obtain ⟨ha, has⟩ := List.forall_mem_cons.mp H
    rw [filterMap, effects_bind, effects_bind, effects_pure, Effects.append_none]
    exact ha.append (ih has)

end Traced

namespace Scene

@[simp] theorem value_openDevice (x : Scene) (p : Path) :
    (x.openDevice p).value = x.openExclusive p := rfl

theorem devicesOnly_openDevice (x : Scene) (p : Path) : (x.openDevice p).effects.DevicesOnly := rfl

end Scene

namespace Host

@[simp] theorem value_execute (h : Host) (c : Command) : (h.execute c).value = h.run c := rfl

theorem closesOnly_closeDevice (p : Path) : (closeDevice p).effects.ClosesOnly := rfl

theorem commandsOnly_execute (h : Host) (c : Command) :
    (h.execute c).effects.CommandsOnly := rfl

@[simp] theorem value_publishResult (h : Host) (s : DiscoveryStatus) :
    (h.publishResult s).value = h.publish s := rfl

@[simp] theorem publications_publishResult (h : Host) (s : DiscoveryStatus) :
    (h.publishResult s).effects.publications = [s] := rfl

end Host

end NodeDisks
