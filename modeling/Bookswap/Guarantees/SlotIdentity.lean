import Bookswap.Web.UseQuickAdd

/-!
# One slot for an edition

Identities that came together in one attempt are aliases of one slot as long as no action takes a
part of another slot's identities, or those of a slot whose outcome is not known
(`Absorbing`); the first action that does breaks it.
-/

namespace Bookswap

open Store

namespace UseQuickAdd

variable {state : QuickAddSlotsState} {actions : List QuickAddSlotsAction}
  {action : QuickAddSlotsAction} {s s' : UseQuickAdd}

/-- The identities that came together. -/
def groupsOf (actions : List QuickAddSlotsAction) : List (List String) :=
  actions.filterMap fun action => action.links.map Prod.snd

/-- A start, and the identities that it was filed under. -/
def startOf : QuickAddSlotsAction → Option (String × List String)
  | .started key identities .. => some (key, key :: identities)
  | _ => none

/-- Slot identity is closed. -/
structure SlotIdentity (state : QuickAddSlotsState) (actions : List QuickAddSlotsAction) : Prop where
  one : ∀ i j, Labels.Linked (groupsOf actions) i j → slotKeyOf state [i] = slotKeyOf state [j]
  reachable : ∀ key slot, state.slots key = some slot → slot.unsettled = true →
    ∀ start ∈ actions, ∀ listed, startOf start = some (key, listed) →
      ∀ i ∈ listed, slotKeyOf state [i] = some key

/-- Of another slot's identities the action names all, and that slot's outcome is known. -/
def Absorbing (state : QuickAddSlotsState) (action : QuickAddSlotsAction) : Prop :=
  ∀ key listed, action.links = some (key, listed) → ∀ i ∈ listed, ∀ k, state.aliases i = some k →
    k ≠ key → (∀ j, state.aliases j = some k → j ∈ listed) ∧
      ∀ slot, state.slots k = some slot → slot.unsettled = false

theorem slotKeyOf_singleton (state : QuickAddSlotsState) (i : String) :
    slotKeyOf state [i] = some (Labels.resolve state.aliases i) := by
  unfold slotKeyOf Labels.resolve
  rw [List.findSome?_cons]
  cases state.aliases i <;> rfl

/-! ## The reducer -/

theorem slots_quickAddSlotsReducer (state : QuickAddSlotsState) (action : QuickAddSlotsAction)
    {k : String} (hk : ∀ key listed, action.links = some (key, listed) → k ≠ key)
    {slot : QuickAddSlot} (hslot : (quickAddSlotsReducer state action).slots k = some slot)
    (hopen : slot.unsettled = true) :
    ∃ old, state.slots k = some old ∧ old.unsettled = true := by
  cases action with
  | started key identities =>
    have hne := hk key _ rfl
    change Function.update state.slots key _ k = _ at hslot
    rw [Function.update_of_ne hne] at hslot
    exact ⟨slot, hslot, hopen⟩
  | done key identities =>
    have hne := hk key _ rfl
    change Function.update state.slots key _ k = _ at hslot
    rw [Function.update_of_ne hne] at hslot
    exact ⟨slot, hslot, hopen⟩
  | rejected key =>
    change Function.update state.slots key _ k = _ at hslot
    by_cases hkey : k = key
    · subst hkey
      rw [Function.update_self] at hslot
      cases hslot
      cases hopen
    · rw [Function.update_of_ne hkey] at hslot
      exact ⟨slot, hslot, hopen⟩
  | unknown key message =>
    unfold quickAddSlotsReducer at hslot
    dsimp only at hslot
    split at hslot
    · next hpending =>
      by_cases hkey : k = key
      · subst hkey
        exact ⟨_, hpending, rfl⟩
      · change Function.update state.slots key _ k = _ at hslot
        rw [Function.update_of_ne hkey] at hslot
        exact ⟨slot, hslot, hopen⟩
    · exact ⟨slot, hslot, hopen⟩

/-- What every absorbing action keeps. -/
structure Filed (state : QuickAddSlotsState) (actions : List QuickAddSlotsAction) : Prop where
  sound : Labels.Sound (groupsOf actions) state.aliases
  /-- Who waits for an outcome was started, and is found. -/
  started : ∀ key slot, state.slots key = some slot → slot.unsettled = true →
    ∃ start ∈ actions, ∃ listed, startOf start = some (key, listed)
  found : ∀ key slot, state.slots key = some slot → slot.unsettled = true →
    ∀ start ∈ actions, ∀ listed, startOf start = some (key, listed) →
      ∀ i ∈ listed, state.aliases i = some key

theorem links_of_start {key : String} {listed : List String}
    (h : startOf action = some (key, listed)) : action.links = some (key, listed) ∧ key ∈ listed := by
  cases action with
  | started key' identities =>
    cases h
    exact ⟨rfl, List.mem_cons_self⟩
  | _ => cases h

theorem key_mem_links {key : String} {listed : List String}
    (h : action.links = some (key, listed)) : key ∈ listed := by
  cases action with
  | started key' identities =>
    cases h
    exact List.mem_cons_self
  | done key' identities =>
    cases h
    exact List.mem_cons_self
  | _ => cases h

theorem groupsOf_append (actions : List QuickAddSlotsAction) (action : QuickAddSlotsAction) :
    groupsOf (actions ++ [action]) = groupsOf actions ++ (action.links.map Prod.snd).toList := by
  unfold groupsOf
  rw [List.filterMap_append]
  cases hlinks : action.links with
  | none => simp [hlinks]
  | some link => simp [hlinks]

theorem Filed.empty : Filed emptySlots [] :=
  ⟨.nil, fun _ _ h => (nomatch h), fun _ _ h => (nomatch h)⟩

theorem Filed.slotIdentity (h : Filed state actions) : SlotIdentity state actions := by
  constructor
  case one =>
    intro i j hij
    rw [slotKeyOf_singleton, slotKeyOf_singleton, h.sound.resolve_linked hij]
  case reachable =>
    intro key slot hslot hopen start hstart listed hlisted i hi
    rw [slotKeyOf_singleton]
    unfold Labels.resolve
    rw [h.found key slot hslot hopen start hstart listed hlisted i hi]
    rfl

/-- **An absorbing action** keeps it. -/
theorem Filed.step (h : Filed state actions) (habsorbs : Absorbing state action) :
    Filed (quickAddSlotsReducer state action) (actions ++ [action]) := by
  have haliases := aliases_quickAddSlotsReducer state action
  have hgroups := groupsOf_append actions action
  cases hlinks : action.links with
  | none =>
    rw [hlinks] at haliases hgroups
    have hold : ∀ {k slot}, (quickAddSlotsReducer state action).slots k = some slot →
        slot.unsettled = true → ∃ old, state.slots k = some old ∧ old.unsettled = true :=
      fun hslot hopen => slots_quickAddSlotsReducer state action
        (fun key listed hl => nomatch hlinks.symm.trans hl) hslot hopen
    constructor
    case sound =>
      rw [hgroups, haliases, Option.map_none, Option.toList_none, List.append_nil]
      exact h.sound
    case started =>
      intro key slot hslot hopen
      obtain ⟨old, hkey, hunsettled⟩ := hold hslot hopen
      obtain ⟨start, hstart, hlisted⟩ := h.started key old hkey hunsettled
      exact ⟨start, List.mem_append_left _ hstart, hlisted⟩
    case found =>
      intro key slot hslot hopen start hstart listed hlisted i hi
      rw [haliases]
      obtain ⟨old, hkey, hunsettled⟩ := hold hslot hopen
      rcases List.mem_append.mp hstart with hstart | hstart
      · exact h.found key old hkey hunsettled start hstart listed hlisted i hi
      · obtain rfl := List.mem_singleton.mp hstart
        exact nomatch hlinks.symm.trans (links_of_start hlisted).1
  | some link =>
    obtain ⟨key, listed⟩ := link
    rw [hlinks] at haliases hgroups
    have hkey := key_mem_links hlinks
    have hsound := h.sound.relabel hkey fun i hi k hik hne => (habsorbs key listed hlinks i hi k hik hne).1
    constructor
    case sound =>
      rw [hgroups, haliases]
      exact hsound
    case started =>
      intro k slot hslot hopen
      by_cases hk : k = key
      · subst hk
        cases action with
        | started _ identities =>
          cases hlinks
          exact ⟨_, List.mem_append_right _ (List.mem_singleton_self _), _, rfl⟩
        | done _ identities =>
          cases hlinks
          change Function.update state.slots k _ k = _ at hslot
          rw [Function.update_self] at hslot
          cases hslot
          cases hopen
        | _ => cases hlinks
      · obtain ⟨old, hold, hunsettled⟩ := slots_quickAddSlotsReducer state action
          (fun key' listed' hl => by rw [hlinks] at hl; cases hl; exact hk) hslot hopen
        obtain ⟨start, hstart, hlisted⟩ := h.started k old hold hunsettled
        exact ⟨start, List.mem_append_left _ hstart, hlisted⟩
    case found =>
      intro k slot hslot hopen start hstart listed' hlisted i hi
      rw [haliases]
      obtain ⟨hstartLinks, hstartKey⟩ := links_of_start hlisted
      by_cases hk : k = key
      · -- the identities of an earlier start on the key stand by the key
        subst hk
        rcases List.mem_append.mp hstart with hstart | hstart
        · have hgroup : listed' ∈ groupsOf actions :=
            List.mem_filterMap.mpr ⟨start, hstart, by rw [hstartLinks]; rfl⟩
          have hsame := hsound.together listed' (List.mem_append_left _ hgroup) i hi k hstartKey
          exact hsame.trans (Labels.relabel_of_mem hkey)
        · obtain rfl := List.mem_singleton.mp hstart
          rw [hlinks] at hstartLinks
          cases hstartLinks
          exact Labels.relabel_of_mem hi
      · obtain ⟨old, hold, hunsettled⟩ := slots_quickAddSlotsReducer state action
          (fun key' listed' hl => by rw [hlinks] at hl; cases hl; exact hk) hslot hopen
        rcases List.mem_append.mp hstart with hstart | hstart
        · have hfound := h.found k old hold hunsettled start hstart listed' hlisted i hi
          have hnot : i ∉ listed := fun hmem => by
            have hsettled := (habsorbs key listed hlinks i hmem k hfound hk).2 old hold
            rw [hunsettled] at hsettled
            cases hsettled
          show Labels.relabel state.aliases key listed i = some k
          rw [Labels.relabel_of_not_mem hnot, hfound]
        · obtain rfl := List.mem_singleton.mp hstart
          rw [hlinks] at hstartLinks
          cases hstartLinks
          exact absurd rfl hk

/-- **Only an absorbing action** does. -/
theorem Filed.absorbing (h : Filed state actions)
    (hclosed : SlotIdentity (quickAddSlotsReducer state action) (actions ++ [action])) :
    Absorbing state action := by
  intro key listed hlinks i hi k hik hne
  have haliases := aliases_quickAddSlotsReducer state action
  have hgroups := groupsOf_append actions action
  rw [hlinks] at haliases hgroups
  have habsorbs : Labels.Absorbs state.aliases key listed := by
    refine h.sound.absorbs fun a b hab => ?_
    have hsame := hclosed.one a b (by rw [hgroups]; exact hab)
    rw [slotKeyOf_singleton, slotKeyOf_singleton, haliases, Option.some.injEq] at hsame
    exact hsame
  refine ⟨habsorbs i hi k hik hne, fun slot hslot => ?_⟩
  by_contra hopen
  have hopen : slot.unsettled = true := by simpa using hopen
  -- the slot's own key is one of the identities that were taken
  obtain ⟨start, hstart, listed', hlisted⟩ := h.started k slot hslot hopen
  have hk : k ∈ listed := habsorbs i hi k hik hne k (h.sound.own i k hik)
  have hslot' : (quickAddSlotsReducer state action).slots k = some slot := by
    cases action with
    | started _ identities =>
      cases hlinks
      exact (Function.update_of_ne hne _ _).trans hslot
    | done _ identities =>
      cases hlinks
      exact (Function.update_of_ne hne _ _).trans hslot
    | _ => cases hlinks
  have hfound := hclosed.reachable k slot hslot' hopen start (List.mem_append_left _ hstart) listed'
    hlisted k (links_of_start hlisted).2
  rw [slotKeyOf_singleton, haliases, Option.some.injEq] at hfound
  unfold Labels.resolve at hfound
  dsimp only at hfound
  rw [Labels.relabel_of_mem hk] at hfound
  exact hne hfound.symm

/-! ## The hook -/

/-- A step dispatches nothing, or one action. -/
theorem Step.dispatches {op : UseQuickAddOp} (hs : Step s op s') :
    (s'.actions = s.actions ∧ s'.state = s.state) ∨ ∃ action,
      s'.actions = s.actions ++ [action] ∧ s'.state = quickAddSlotsReducer s.state action := by
  have hrun : ∀ (key : String) (entry : PendingEntry),
      ((s.run key entry).actions = s.actions ∧ (s.run key entry).state = s.state) ∨ ∃ action,
        (s.run key entry).actions = s.actions ++ [action] ∧
          (s.run key entry).state = quickAddSlotsReducer s.state action := by
    intro key entry
    unfold run
    split
    · exact Or.inl ⟨rfl, rfl⟩
    · exact Or.inr ⟨_, rfl, rfl⟩
  have hretry : ∀ identities : List String,
      ((s.retry identities).actions = s.actions ∧ (s.retry identities).state = s.state) ∨
        ∃ action, (s.retry identities).actions = s.actions ++ [action] ∧
          (s.retry identities).state = quickAddSlotsReducer s.state action := by
    intro identities
    unfold UseQuickAdd.retry
    split
    · exact Or.inl ⟨rfl, rfl⟩
    · split
      · exact hrun _ _
      · exact Or.inl ⟨rfl, rfl⟩
  cases hs with
  | sync => exact Or.inl ⟨rfl, rfl⟩
  | resume => exact hrun _ _
  | add =>
    unfold UseQuickAdd.add
    split
    · exact Or.inl ⟨rfl, rfl⟩
    · split
      · exact Or.inl ⟨rfl, rfl⟩
      · dsimp only
        split
        · exact Or.inl ⟨rfl, rfl⟩
        · exact hretry _
        · split
          · exact hrun _ _
          · exact Or.inl ⟨rfl, rfl⟩
        · exact hrun _ _
        · exact hrun _ _
  | retry => exact hretry _
  | @answer _ _ answer =>
    refine Or.inr ?_
    cases answer with
    | added => exact ⟨_, rfl, rfl⟩
    | rejected => exact ⟨_, rfl, rfl⟩
    | unknown => exact ⟨_, rfl, rfl⟩
  | reported => exact Or.inl ⟨rfl, rfl⟩

/-- The step's action, if it dispatches one, is absorbing. -/
def Whole (s : UseQuickAdd) (_ : UseQuickAddOp) (s' : UseQuickAdd) : Prop :=
  ∀ action, s'.actions = s.actions ++ [action] → Absorbing s.state action

theorem Filed.of_step {op : UseQuickAddOp} (h : Filed s.state s.actions) (hs : Step s op s')
    (hwhole : Whole s op s') : Filed s'.state s'.actions := by
  rcases hs.dispatches with ⟨hactions, hstate⟩ | ⟨action, hactions, hstate⟩
  · rw [hactions, hstate]
    exact h
  · rw [hactions, hstate]
    exact h.step (hwhole action hactions)

theorem filed_of_reachable (h : (useQuickAdd.restrict Whole).Reachable s) :
    Filed s.state s.actions := by
  refine Machine.Reachable.invariant (M := useQuickAdd.restrict Whole)
    (I := fun s => Filed s.state s.actions) ?_ ?_ h
  · rintro s ⟨stored, rfl⟩
    exact .empty
  · rintro s op s' - hfiled ⟨hs, hwhole⟩
    exact hfiled.of_step hs hwhole

/-- **Identities that came together have one slot**, as long as every action is absorbing, and no
longer. -/
theorem slot_identity_closed (h : (useQuickAdd.restrict Whole).Reachable s) :
    SlotIdentity s.state s.actions ∧
      ∀ op s', Step s op s' → (SlotIdentity s'.state s'.actions ↔ Whole s op s') := by
  have hfiled := filed_of_reachable h
  refine ⟨hfiled.slotIdentity, fun op s' hs => ⟨fun hclosed action hactions => ?_, fun hwhole =>
    (hfiled.of_step hs hwhole).slotIdentity⟩⟩
  rcases hs.dispatches with ⟨hsame, -⟩ | ⟨action', hactions', hstate⟩
  · have hlen := congrArg List.length (hsame.symm.trans hactions)
    rw [List.length_append, List.length_singleton] at hlen
    omega
  · have heq := List.append_cancel_left (hactions'.symm.trans hactions)
    cases heq
    rw [hactions, hstate] at hclosed
    exact hfiled.absorbing hclosed

/-- An attempt to add an existing edition from a card with these identities. -/
def attemptOf (identities : List String) : QuickAddAttempt :=
  ⟨identities, .existingEdition 1, .manual, none, false, none⟩

/-- Two cards that share an identity, while the first request goes on. -/
theorem slot_identity_closed_cards : ∃ s : UseQuickAdd, slotKeyOf s.state ["isbn:2"] = some "gb:1" ∧
    SlotIdentity s.state s.actions := by
  let page := loaded .empty
  have hpage : (useQuickAdd.restrict Whole).Reachable page := .start ⟨_, rfl⟩
  have hadd : Step page (.add (attemptOf ["gb:1", "isbn:2"]) 1) _ := .add rfl
  have hwhole : Whole page (.add (attemptOf ["gb:1", "isbn:2"]) 1)
      (page.add (attemptOf ["gb:1", "isbn:2"]) 1) := fun action _ key listed _ i _ k hk =>
    nomatch hk
  exact ⟨_, by decide +kernel, (slot_identity_closed (hpage.next ⟨hadd, hwhole⟩)).1⟩

/-- A card that names identities of two slots takes one of them over alone; and a card takes over
the identity of a slot whose request goes on. -/
theorem slot_identity_torn :
    (∃ s, useQuickAdd.Reachable s ∧ Labels.Linked (groupsOf s.actions) "isbn:1" "isbn:2" ∧
      slotKeyOf s.state ["isbn:1"] ≠ slotKeyOf s.state ["isbn:2"]) ∧
    ∃ s, useQuickAdd.Reachable s ∧
      (s.state.slots "isbn:1").map QuickAddSlot.unsettled = some true ∧
      (∃ start ∈ s.actions, startOf start = some ("isbn:1", ["isbn:1", "isbn:1"])) ∧
      slotKeyOf s.state ["isbn:1"] ≠ some "isbn:1" := by
  have hpage : useQuickAdd.Reachable (loaded .empty) := .start ⟨_, rfl⟩
  constructor
  · have hfirst := hpage.next (@Step.add _ (attemptOf ["isbn:1", "isbn:2"]) 1 rfl)
    have hno := hfirst.next (@Step.answer _ "isbn:1" _ (.rejected "" none none) rfl rfl rfl)
    have hother := hno.next (@Step.add _ (attemptOf ["gb:3"]) 2 rfl)
    have hno := hother.next (@Step.answer _ "gb:3" _ (.rejected "" none none) rfl rfl rfl)
    have hboth := (hno.next .sync).next (@Step.add _ (attemptOf ["gb:3", "isbn:2"]) 3 rfl)
    refine ⟨_, hboth, .of_mem (g := ["isbn:1", "isbn:1", "isbn:2"]) ?_ ?_ ?_, by decide +kernel⟩
    · exact List.mem_cons_self
    · exact List.mem_cons_self
    · exact List.mem_cons_of_mem _ (List.mem_cons_of_mem _ List.mem_cons_self)
  · have hfirst := hpage.next (@Step.add _ (attemptOf ["isbn:1"]) 1 rfl)
    have hother := hfirst.next (@Step.add _ (attemptOf ["gb:3"]) 2 rfl)
    have hno := hother.next (@Step.answer _ "gb:3" _ (.rejected "" none none) rfl rfl rfl)
    have hboth := (hno.next .sync).next (@Step.add _ (attemptOf ["gb:3", "isbn:1"]) 3 rfl)
    exact ⟨_, hboth, by decide +kernel, ⟨_, List.mem_cons_self, rfl⟩, by decide +kernel⟩

end UseQuickAdd

end Bookswap
