import Bookswap.Guarantees.ResourceHistory
import Bookswap.Web.WishlistJournal

/-!
# The wishlist shows what was asked, and then what the server has

- `Overlay`, `Overlay.step`: what every step keeps of the resource, the server and the journal.
- `wishlist_overlay`: the claim about every reachable state.
-/

namespace Bookswap

open Store

namespace UseWishlist

variable {s s' : UseWishlist}

/-! ## What every step keeps -/

structure Overlay (s : UseWishlist) : Prop where
  reach : (useApiResource WishlistResponse).Reachable s.resource
  idle : s.effectPending = false → s.resource.effectPending = false
  /-- The server: who changed a work last left it as its request asks, now and at each read. -/
  changed : ∀ w i, s.changedBy w = some i → ∃ r : WishlistRequest, s.requests[i]? = some r ∧
    isInWishlist s.server w = r.kind.present
  reads : ∀ read ∈ s.reads, ∀ w i, read.changedBy w = some i → ∃ r : WishlistRequest,
    s.requests[i]? = some r ∧ isInWishlist read.response.items w = r.kind.present
  answers : ∀ k data, (k, .ok data) ∈ s.resource.answers →
    data.get = k ∧ ∃ read ∈ s.reads, read.response = data
  single : (s.inFlight.map WishlistRequest.workId).Nodup
  /-- The ref is the journal to be rendered, or the effect of the last commit makes it so. -/
  synced : s.effectPending = false → s.operationsRef = s.latest
  syncing : s.effectPending = true → s.queuedOperations = none ∧
    (s.syncPending = false → s.operationsRef = s.operations)
  ready : ∀ data, s.resource.visible = .ready data → s.lastData = some data
  last : ∀ data, s.lastData = some data → ∃ k, (k, .ok data) ∈ s.resource.answers
  loaded : s.requests ≠ [] → s.lastData ≠ none
  journal : s.resource.alive = true → Journal s.requests s.confirmed s.latest
  /-- An answer asked for after the last mutation shows no entry that is still committed. -/
  reconciled : s.resource.alive = true → ∀ data, s.lastData = some data → s.answeredAt ≤ data.get →
    ∀ w operation, s.latest.get w = some (.committed operation) →
      isReflectedByServer operation w data.items = false

theorem Overlay.data_eq (h : s.Overlay) : s.data = s.lastData := by
  unfold data visibleData
  split
  · next data hvisible => exact (h.ready data hvisible).symm
  · rfl

/-- What is shown of a work. -/
theorem Overlay.isMember_eq (h : s.Overlay) (halive : s.resource.alive = true)
    {data : WishlistResponse} (hdata : s.lastData = some data) (w : String) :
    s.isMember w = match s.latest.get w with
      | some operation => operation.intent.kind.present
      | none => isInWishlist data.items w := by
  have hitems : s.items = some (applyOperations data.items s.latest) := by
    unfold items
    rw [h.data_eq, hdata]
    rfl
  unfold isMember
  rw [hitems]
  exact isInWishlist_applyOperations data.items (h.journal halive).addressed w

theorem Overlay.tidy (h : s.Overlay) :
    UseResource.TidyRuns s.resource.runs s.resource.tracked.2 :=
  (UseResource.reachable_coherent h.reach).tidy.runs

theorem Overlay.initial (server : List WishlistItemDto) : (initial server).Overlay := by
  have hjournal : Journal [] (fun _ => none) (.empty : WishlistOperations) := by
    constructor
    case flying => exact fun r hr => nomatch hr
    case pending => exact fun w intent previous hget => nomatch hget
    case committed => rintro w operation (hget | ⟨intent, hget⟩) <;> cases hget
  constructor
  case reach => exact .start ⟨_, rfl⟩
  case idle => exact fun h => nomatch h
  case changed => exact fun w i h => nomatch h
  case reads => exact fun read hread => nomatch hread
  case answers => exact fun k data h => nomatch h
  case single => exact List.nodup_nil
  case synced => exact fun _ => rfl
  case syncing => exact fun _ => ⟨rfl, fun _ => rfl⟩
  case ready => exact fun data h => nomatch h
  case last => exact fun data h => nomatch h
  case loaded => exact fun h => absurd rfl h
  case journal => exact fun _ => hjournal
  case reconciled => exact fun _ data h => nomatch h

/-! ## The steps of the resource -/

/-- A step of the resource that shows nothing new. -/
theorem Overlay.of_resource (h : s.Overlay) {resource : UseResource WishlistResponse}
    (hreach : (useApiResource WishlistResponse).Reachable resource)
    (hidle : s.resource.effectPending = false → resource.effectPending = false)
    (hvisible : resource.visible = s.resource.visible)
    (halive : resource.alive = true → s.resource.alive = true)
    (hmore : ∀ x ∈ s.resource.answers, x ∈ resource.answers)
    (hnew : ∀ k data, (k, .ok data) ∈ resource.answers → (k, .ok data) ∈ s.resource.answers ∨
      (data.get = k ∧ ∃ read ∈ s.reads, read.response = data)) :
    { s with resource := resource }.Overlay := by
  constructor
  case reach => exact hreach
  case idle => exact fun hp => hidle (h.idle hp)
  case changed => exact h.changed
  case reads => exact h.reads
  case answers => exact fun k data hmem => (hnew k data hmem).elim (h.answers k data) id
  case single => exact h.single
  case synced => exact h.synced
  case syncing => exact h.syncing
  case ready => exact fun data hready => h.ready data (hvisible ▸ hready)
  case last => exact fun data hdata => (h.last data hdata).imp fun k hk => hmore _ hk
  case loaded => exact h.loaded
  case journal => exact fun ha => h.journal (halive ha)
  case reconciled => exact fun ha => h.reconciled (halive ha)

theorem Overlay.delivered (h : s.Overlay) {run : EffectRun WishlistResponse}
    (hrun : run ∈ s.resource.runs) (hload : run.load = .running)
    {outcome : Except String WishlistResponse}
    (houtcome : ∀ data, outcome = .ok data → data.get = run.id ∧ ∃ read ∈ s.reads, read.response = data) :
    { s with resource := s.resource.answered run outcome }.Overlay := by
  have hmem : ∀ {k outcome'}, (k, outcome') ∈ (s.resource.answered run outcome).answers ↔ _ :=
    UseResource.mem_answers_answered h.tidy hrun hload
  refine h.of_resource (h.reach.next (.answer hrun hload)) id rfl id
    (fun x hx => hmem.mpr (.inr hx)) fun k data hk => ?_
  rcases hmem.mp hk with ⟨rfl, heq⟩ | hk
  · exact Or.inr (houtcome data heq.symm)
  · exact Or.inl hk

theorem Overlay.settled (h : s.Overlay) {run : EffectRun WishlistResponse}
    {outcome : Except String WishlistResponse} (hrun : run ∈ s.resource.runs)
    (hload : run.load = .answered outcome) :
    { s with resource := s.resource.settled run outcome }.Overlay := by
  have hmem : ∀ {k outcome'}, (k, outcome') ∈ (s.resource.settled run outcome).answers ↔ _ :=
    UseResource.mem_answers_settled h.tidy hrun hload
  obtain ⟨hvisible, halive⟩ := UseResource.settled_frame s.resource run outcome
  have hpending : (s.resource.settled run outcome).effectPending = s.resource.effectPending := by
    unfold UseResource.settled
    split <;> rfl
  exact h.of_resource (h.reach.next (.settle hrun hload)) (fun hp => hpending.trans hp) hvisible
    (fun ha => halive ▸ ha) (fun x hx => hmem.mpr hx) fun k data hk => .inl (hmem.mp hk)

theorem Overlay.unmounted (h : s.Overlay) (halive : s.resource.alive = true)
    (hpending : s.effectPending = false) :
    { s with resource := s.resource.unmounted }.Overlay := by
  obtain ⟨hanswers, hvisible, hdead⟩ := UseResource.unmounted_frame s.resource
  have hidle : s.resource.unmounted.effectPending = s.resource.effectPending := by
    obtain ⟨runs, pending, heq⟩ := UseResource.cleanEffect_eq s.resource
    unfold UseResource.unmounted
    rw [heq]
    rfl
  refine h.of_resource (h.reach.next (.unmount halive (h.idle hpending)))
    (fun hp => hidle.trans hp) hvisible (fun ha => ?_) (fun x hx => hanswers ▸ hx)
    fun k data hk => .inl (hanswers ▸ hk)
  rw [hdead] at ha
  cases ha

/-- **The effects of a commit.** -/
theorem Overlay.flushed (h : s.Overlay) (halive : s.resource.alive = true)
    (hpending : s.effectPending = true) (strict : Bool) : (s.flushed strict).Overlay := by
  obtain ⟨hqueued, hsync⟩ := h.syncing hpending
  have hlatest : s.latest = s.operations := by
    unfold latest
    rw [hqueued]
    rfl
  have hresource : { s with resource :=
      if s.resource.effectPending then s.resource.flushed strict else s.resource }.Overlay ∧
      (if s.resource.effectPending then s.resource.flushed strict else s.resource).effectPending =
        false := by
    split
    · next hp =>
      obtain ⟨hanswers, hvisible, ha, hidle⟩ := UseResource.flushed_frame s.resource strict
      refine ⟨?_, hidle⟩
      exact h.of_resource (h.reach.next (.flush halive hp)) (fun _ => hidle) hvisible
        (fun hx => ha ▸ hx) (fun x hx => hanswers ▸ hx) fun k data hk => .inl (hanswers ▸ hk)
    · next hp => exact ⟨h, by simpa using hp⟩
  obtain ⟨hover, hidle⟩ := hresource
  refine { hover with idle := fun _ => hidle, synced := fun _ => ?_, syncing := fun hp => (nomatch hp) }
  show (if s.syncPending = true then s.operations else s.operationsRef) = s.latest
  rw [hlatest]
  split
  · rfl
  · next hp => exact hsync (by simpa using hp)

/-! ## The other steps -/

theorem latest_of_none (h : s.queuedOperations = none) : s.latest = s.operations := by
  unfold latest
  rw [h]
  rfl

/-- **A render.** -/
theorem Overlay.rendered (h : s.Overlay) (halive : s.resource.alive = true)
    (hpending : s.effectPending = false) : s.rendered.Overlay := by
  have hreach : (useApiResource WishlistResponse).Reachable (s.resource.rendered wishlistInputs) :=
    h.reach.next (.render halive (h.idle hpending))
  have hsynced := h.synced hpending
  unfold UseWishlist.rendered
  dsimp only
  -- a render that brings no new answer
  have hsame : (∀ data, (s.resource.rendered wishlistInputs).visible = .ready data →
      s.lastData = some data) → UseWishlist.Overlay { s with
        resource := s.resource.rendered wishlistInputs
        operations := s.latest
        queuedOperations := none
        effectPending := true
        syncPending := s.queuedOperations ≠ none } := by
    intro hready
    refine { h with
      reach := hreach
      idle := fun hp => (nomatch hp)
      synced := fun hp => (nomatch hp)
      syncing := fun _ => ⟨rfl, fun hp => hsynced⟩
      ready := hready }
  split
  · next data hvisible =>
    split
    · next hne =>
      obtain ⟨run, rest, hruns, hout⟩ := UseResource.visible_ready hreach halive hvisible
      have hmem : (run.id, .ok data) ∈ (s.resource.rendered wishlistInputs).answers :=
        UseResource.mem_answers.mpr ⟨run, hruns ▸ List.mem_cons_self, rfl, hout⟩
      refine { h with
        reach := hreach
        idle := fun hp => (nomatch hp)
        synced := fun hp => (nomatch hp)
        syncing := fun _ => ⟨rfl, fun hp => ?_⟩
        ready := fun d hd => ?_
        last := fun d hd => ?_
        loaded := fun _ hnone => (nomatch hnone)
        journal := fun ha => (h.journal ha).reconcile data.items
        reconciled := fun ha d hd hlate w operation hget => ?_ }
      · have hp := of_decide_eq_false hp
        rw [not_or, not_not] at hp
        exact hsynced.trans hp.2.symm
      · rw [hvisible] at hd
        cases hd
        rfl
      · cases hd
        exact ⟨run.id, hmem⟩
      · cases hd
        change (reconcileOperations s.latest data.items).get w = _ at hget
        rw [get_reconcileOperations] at hget
        have hkeep := (Option.filter_eq_some_iff.mp hget).2
        simpa using hkeep
    · next heq =>
      refine hsame fun d hd => ?_
      rw [hvisible] at hd
      cases hd
      exact not_not.mp heq
  · next hnot => exact hsame fun d hd => absurd hd (hnot d)

/-- **A request is sent.** -/
theorem Overlay.mutated (h : s.Overlay) (halive : s.resource.alive = true)
    (hpending : s.effectPending = false) (workId : String) (kind : WishlistOperationKind) :
    (s.mutated workId kind).Overlay := by
  have hsynced := h.synced hpending
  unfold UseWishlist.mutated
  split
  · exact h
  · next data hdata =>
    dsimp only
    split
    · next hstarted =>
      obtain ⟨previous, hnext, hget, -⟩ := beginOperation_started hstarted
      rw [hnext]
      rw [hsynced] at hget ⊢
      have hlast : s.lastData = some data := h.data_eq.symm.trans hdata
      let new : WishlistRequest := ⟨workId, kind, false, none, s.isMember workId, s.data⟩
      have hrestores : Restores new previous := by
        have hmember := h.isMember_eq halive hlast workId
        rw [hget] at hmember
        cases previous with
        | none => exact ⟨data, hdata, hmember⟩
        | some previous => exact hmember
      obtain ⟨hjournal, hother⟩ :=
        (h.journal halive).sent new rfl hget hrestores
      have hkept := SameRequests.append s.requests [new]
      refine { h with
        changed := fun w i hi => ?_
        reads := fun read hread w i hi => ?_
        single := ?_
        synced := fun _ => rfl
        syncing := fun hp => absurd (hpending.symm.trans hp) (by decide)
        loaded := fun _ hnone => ?_
        journal := fun _ => hjournal
        reconciled := fun ha d hd hlate w operation hop => ?_ }
      · obtain ⟨r, hr, hserver⟩ := h.changed w i hi
        obtain ⟨r', hr', hkind⟩ := hkept i r hr
        exact ⟨r', hr', hkind ▸ hserver⟩
      · obtain ⟨r, hr, hserver⟩ := h.reads read hread w i hi
        obtain ⟨r', hr', hkind⟩ := hkept i r hr
        exact ⟨r', hr', hkind ▸ hserver⟩
      · show (((s.requests ++ [new]).filter WishlistRequest.inFlight).map WishlistRequest.workId).Nodup
        rw [List.filter_append, List.map_append]
        refine List.Nodup.append h.single (List.nodup_singleton _) fun w hw hw' => ?_
        obtain ⟨r, hr, rfl⟩ := List.mem_map.mp hw
        obtain ⟨hmem, hfly⟩ := List.mem_filter.mp hr
        exact hother r hmem (of_decide_eq_true hfly) (List.mem_singleton.mp hw')
      · exact nomatch hlast.symm.trans hnone
      · refine h.reconciled ha d hd hlate w operation ?_
        change (s.latest.set workId _).get w = _ at hop
        rw [OrderedMap.get_set] at hop
        split at hop
        · cases hop
        · exact hop
    · exact h

theorem isInWishlist_changed (workId : String) (kind : WishlistOperationKind) (id : String)
    (request : Option Nat) (w : String) :
    isInWishlist (s.changed workId kind id request).server w =
      if w = workId then kind.present else isInWishlist s.server w := by
  cases kind with
  | add => exact isInWishlist_withAdded s.server ⟨id, workId⟩ w
  | remove => exact isInWishlist_withRemoved s.server workId w

theorem Overlay.elsewhere (h : s.Overlay) (workId : String) (kind : WishlistOperationKind)
    (id : String) : (s.changed workId kind id none).Overlay := by
  refine { h with changed := fun w i hi => ?_ }
  change Function.update s.changedBy workId none w = some i at hi
  rw [Function.update_apply] at hi
  rw [isInWishlist_changed]
  split at hi
  · cases hi
  · next hw =>
    rw [if_neg hw]
    exact h.changed w i hi

/-- **The server carries a request out.** -/
theorem Overlay.served (h : s.Overlay) {i : Nat} {r : WishlistRequest}
    (hr : s.requests[i]? = some r) (id : String) : (s.servedRequest i r id).Overlay := by
  have hkept := SameRequests.set hr { r with served := true } rfl
  have hfly : ∀ {x : WishlistRequest}, x ∈ s.requests.set i { r with served := true } →
      x.answer = none → ∃ y ∈ s.requests, y.answer = none ∧ y.workId = x.workId ∧ y.kind = x.kind ∧
        y.shown = x.shown ∧ y.overData = x.overData := by
    intro x hx hnone
    rcases List.mem_or_eq_of_mem_set hx with hx | rfl
    · exact ⟨x, hx, hnone, rfl, rfl, rfl, rfl⟩
    · exact ⟨r, List.mem_of_getElem? hr, hnone, rfl, rfl, rfl, rfl⟩
  refine { h with
    changed := fun w j hj => ?_
    reads := fun read hread w j hj => ?_
    single := ?_
    loaded := fun hne => h.loaded fun hnil => ?_
    journal := fun ha => ?_ }
  · change Function.update s.changedBy r.workId (some i) w = some j at hj
    show ∃ x : WishlistRequest, (s.requests.set i { r with served := true })[j]? = some x ∧
      isInWishlist (s.changed r.workId r.kind id (some i)).server w = _
    rw [Function.update_apply] at hj
    rw [isInWishlist_changed]
    split at hj
    · next hw =>
      cases hj
      obtain ⟨x, hx, hkind⟩ := hkept i r hr
      exact ⟨x, hx, by rw [if_pos hw, hkind]⟩
    · next hw =>
      rw [if_neg hw]
      obtain ⟨y, hy, hserver⟩ := h.changed w j hj
      obtain ⟨x, hx, hkind⟩ := hkept j y hy
      exact ⟨x, hx, hkind ▸ hserver⟩
  · obtain ⟨y, hy, hserver⟩ := h.reads read hread w j hj
    obtain ⟨x, hx, hkind⟩ := hkept j y hy
    exact ⟨x, hx, hkind ▸ hserver⟩
  · show (((s.requests.set i _).filter WishlistRequest.inFlight).map WishlistRequest.workId).Nodup
    have hsame : ((s.requests.set i { r with served := true }).filter WishlistRequest.inFlight).map
        WishlistRequest.workId = s.inFlight.map WishlistRequest.workId := filter_set_map hr rfl rfl
    exact hsame ▸ h.single
  · exact nomatch (show s.requests[i]? = none by rw [hnil]; rfl).symm.trans hr
  · have hj := h.journal ha
    constructor
    case flying =>
      intro x hx hnone
      obtain ⟨y, hy, hynone, hw, hkind, hshown, hover⟩ := hfly hx hnone
      obtain ⟨previous, hget, hrestores⟩ := hj.flying y hy hynone
      rw [hw, hkind] at hget
      refine ⟨previous, hget, ?_⟩
      cases previous with
      | none =>
        obtain ⟨data, hdata, heq⟩ := hrestores
        exact ⟨data, hover ▸ hdata, hshown ▸ hw ▸ heq⟩
      | some previous => exact hshown.symm.trans hrestores
    case pending =>
      intro w intent previous hget
      obtain ⟨x, hx, hnone, hw, hintent⟩ := hj.pending w intent previous hget
      obtain ⟨j, hj⟩ := List.mem_iff_getElem?.mp hx
      by_cases hij : j = i
      · subst hij
        obtain rfl := Option.some.inj (hr.symm.trans hj)
        exact ⟨_, List.mem_set (List.getElem?_eq_some_iff.mp hr).1 _, hnone, hw, hintent⟩
      · refine ⟨x, List.mem_iff_getElem?.mpr ⟨j, ?_⟩, hnone, hw, hintent⟩
        exact (List.getElem?_set_ne (Ne.symm hij)).trans hj
    case committed =>
      intro w operation hcom
      obtain ⟨j, y, hconf, hy, hop⟩ := hj.committed w operation hcom
      obtain ⟨x, hx, hkind⟩ := hkept j y hy
      exact ⟨j, x, hconf, hx, hkind ▸ hop⟩

/-- What an answer changes outside the tree: the requests, and when the last answer came. -/
theorem Overlay.noted (h : s.Overlay) {i : Nat} {r : WishlistRequest}
    (hr : s.requests[i]? = some r) (hnone : r.answer = none) (ok : Bool)
    {operations : WishlistOperations} {queued : Option WishlistOperations}
    (hops : s.resource.alive = true → queued = some operations ∧
      Journal (s.requests.set i { r with answer := some ok })
        (if ok then Function.update s.confirmed r.workId (some i) else s.confirmed) operations)
    (hdead : s.resource.alive = false → queued = s.queuedOperations ∧ operations = s.operationsRef)
    (hpending : s.effectPending = false) :
    UseWishlist.Overlay { s with
      requests := s.requests.set i { r with answer := some ok }
      confirmed := if ok then Function.update s.confirmed r.workId (some i) else s.confirmed
      answeredAt := s.resource.runs.length
      operationsRef := operations
      queuedOperations := queued } := by
  have hkept := SameRequests.set hr { r with answer := some ok } rfl
  refine { h with
    changed := fun w j hj => ?_
    reads := fun read hread w j hj => ?_
    single := ?_
    synced := fun _ => ?_
    syncing := fun hp => absurd (hpending.symm.trans hp) (by decide)
    loaded := fun hne => h.loaded fun hnil => ?_
    journal := fun ha => ?_
    reconciled := fun ha data hdata hlate => ?_ }
  · obtain ⟨y, hy, hserver⟩ := h.changed w j hj
    obtain ⟨x, hx, hkind⟩ := hkept j y hy
    exact ⟨x, hx, hkind ▸ hserver⟩
  · obtain ⟨y, hy, hserver⟩ := h.reads read hread w j hj
    obtain ⟨x, hx, hkind⟩ := hkept j y hy
    exact ⟨x, hx, hkind ▸ hserver⟩
  · have hperm := filter_set_perm (p := WishlistRequest.inFlight) (b := { r with answer := some ok })
      hr (decide_eq_true hnone) rfl
    have hnodup := (hperm.map WishlistRequest.workId).nodup_iff.mp h.single
    exact (List.nodup_cons.mp hnodup).2
  · cases ha : s.resource.alive with
    | true => rw [(hops ha).1]; rfl
    | false =>
      obtain ⟨hq, ho⟩ := hdead ha
      rw [hq, ho]
      exact h.synced hpending
  · exact nomatch (show s.requests[i]? = none by rw [hnil]; rfl).symm.trans hr
  · obtain ⟨hq, hjournal⟩ := hops ha
    show Journal _ _ (queued.getD s.operations)
    rw [hq]
    exact hjournal
  · -- every answer so far was asked for before
    obtain ⟨k, hk⟩ := h.last data hdata
    obtain ⟨hget, -⟩ := h.answers k data hk
    obtain ⟨run, hrun, hid, -⟩ := UseResource.mem_answers.mp hk
    have hlt := h.tidy.id_lt hrun
    have hlate : s.resource.runs.length ≤ data.get := hlate
    omega

/-- The entry of a request in flight. -/
theorem Overlay.entry (h : s.Overlay) (halive : s.resource.alive = true)
    (hpending : s.effectPending = false) {r : WishlistRequest} (hr : r ∈ s.requests)
    (hnone : r.answer = none) : ∃ previous,
      s.operationsRef.get r.workId = some (.pending (intentOf r.workId r.kind) previous) ∧
        Restores r previous := by
  rw [h.synced hpending]
  exact (h.journal halive).flying r hr hnone

theorem Overlay.journal_committed (h : s.Overlay) (halive : s.resource.alive = true)
    (hpending : s.effectPending = false) {i : Nat} {r : WishlistRequest}
    (hr : s.requests[i]? = some r) (hnone : r.answer = none) :
    Journal (s.requests.set i { r with answer := some true })
      (Function.update s.confirmed r.workId (some i))
      (withCommittedOperation s.operationsRef r.workId) := by
  obtain ⟨previous, hentry, -⟩ := h.entry halive hpending (List.mem_of_getElem? hr) hnone
  have hj := h.journal halive
  rw [← h.synced hpending] at hj
  have hget : ∀ k, (withCommittedOperation s.operationsRef r.workId).get k = if k = r.workId then
      (some (WishlistCommittedOperation.mk (intentOf r.workId r.kind))).map .committed
      else s.operationsRef.get k := get_withCommittedOperation hentry
  refine hj.answered h.single hr hnone { r with answer := some true } rfl rfl hget
    (fun k hk => Function.update_of_ne hk _ _) fun operation hop => ?_
  cases hop
  exact ⟨i, r, Function.update_self .., hr, rfl⟩

theorem Overlay.journal_rolledBack (h : s.Overlay) (halive : s.resource.alive = true)
    (hpending : s.effectPending = false) {i : Nat} {r : WishlistRequest}
    (hr : s.requests[i]? = some r) (hnone : r.answer = none) :
    Journal (s.requests.set i { r with answer := some false }) s.confirmed
      (withRolledBackOperation s.operationsRef r.workId) := by
  obtain ⟨previous, hentry, -⟩ := h.entry halive hpending (List.mem_of_getElem? hr) hnone
  have hj := h.journal halive
  rw [← h.synced hpending] at hj
  refine hj.answered h.single hr hnone { r with answer := some false } rfl rfl
    (get_withRolledBackOperation hentry) (fun k _ => rfl) fun operation hop => ?_
  -- what the entry goes back to was committed before it
  cases hop
  exact hj.committed r.workId operation (.inr ⟨_, hentry⟩)

/-- **A request is answered.** -/
theorem Overlay.answered (h : s.Overlay) {i : Nat} {r : WishlistRequest}
    (hr : s.requests[i]? = some r) (hnone : r.answer = none) (ok : Bool)
    (hpending : s.effectPending = false) : (s.answered i r ok).Overlay := by
  unfold UseWishlist.answered
  dsimp only
  split
  · next hdead =>
    exact h.noted hr hnone ok (fun ha => absurd (hdead.symm.trans ha) (by decide))
      (fun _ => ⟨rfl, rfl⟩) hpending
  · next halive =>
    have halive : s.resource.alive = true := by simpa using halive
    have hnot : s.resource.alive = false → False := fun hdead =>
      absurd (hdead.symm.trans halive) (by decide)
    cases ok with
    | true =>
      have hnoted := h.noted hr hnone true
        (fun _ => ⟨rfl, h.journal_committed halive hpending hr hnone⟩) (fun hdead => (hnot hdead).elim)
        hpending
      obtain ⟨hruns, hvisible, ha⟩ := UseResource.reloaded_frame s.resource
      have hanswers : s.resource.reloaded.answers = s.resource.answers := by
        unfold UseResource.answers
        rw [hruns]
      have hidle : s.resource.reloaded.effectPending = s.resource.effectPending := by
        unfold UseResource.reloaded
        dsimp only
        split <;> rfl
      exact hnoted.of_resource (h.reach.next .reload) (fun hp => hidle.trans hp) hvisible
        (fun hx => ha ▸ hx) (fun x hx => hanswers ▸ hx) fun k data hk => .inl (hanswers ▸ hk)
    | false =>
      exact h.noted hr hnone false (fun _ => ⟨rfl, h.journal_rolledBack halive hpending hr hnone⟩)
        (fun hdead => (hnot hdead).elim) hpending

/-- **Every step keeps the invariant.** -/
theorem Overlay.step (h : s.Overlay) {op : UseWishlistOp} (hs : Step s op s') : s'.Overlay := by
  cases hs with
  | render halive hpending => exact h.rendered halive hpending
  | flush halive hpending => exact h.flushed halive hpending _
  | unmount halive hpending => exact h.unmounted halive hpending
  | mutate halive hpending => exact h.mutated halive hpending _ _
  | serve hr => exact h.served hr _
  | answer hr hnone _ hpending => exact h.answered hr hnone _ hpending
  | elsewhere => exact h.elsewhere _ _ _
  | read hrun hload hnew =>
    refine { h with
      reads := fun read hread w i hi => ?_
      answers := fun k data hk => ?_ }
    · rcases List.mem_append.mp hread with hread | hread
      · exact h.reads read hread w i hi
      · obtain rfl := List.mem_singleton.mp hread
        exact h.changed w i hi
    · obtain ⟨hget, read, hread, heq⟩ := h.answers k data hk
      exact ⟨hget, read, List.mem_append_left _ hread, heq⟩
  | delivered hrun hload hread hget =>
    refine h.delivered hrun hload fun data hdata => ?_
    cases hdata
    exact ⟨hget, _, hread, rfl⟩
  | failed hrun hload => exact h.delivered hrun hload fun data hdata => nomatch hdata
  | settle hrun hload => exact h.settled hrun hload

theorem Overlay.exists_data (h : s.Overlay) {r : WishlistRequest} (hr : r ∈ s.requests) :
    ∃ data, s.lastData = some data :=
  Option.ne_none_iff_exists'.mp (h.loaded (List.ne_nil_of_mem hr))

theorem Overlay.failure (h : s.Overlay) (halive : s.resource.alive = true) {i : Nat}
    {r : WishlistRequest} (hr : s.requests[i]? = some r) (hnone : r.answer = none)
    (hpending : s.effectPending = false) :
    (∀ w, w ≠ r.workId → (s.answered i r false).isMember w = s.isMember w) ∧
      ((s.answered i r false).isMember r.workId = r.shown ∨ r.overData ≠ s.lastData ∧
        ∃ data, s.lastData = some data ∧
          (s.answered i r false).isMember r.workId = isInWishlist data.items r.workId) := by
  have hmem := List.mem_of_getElem? hr
  have hafter := h.answered hr hnone false hpending
  obtain ⟨data, hdata⟩ := h.exists_data hmem
  obtain ⟨previous, hentry, hrestores⟩ := h.entry halive hpending hmem hnone
  have hanswered : s.answered i r false = { s with
      requests := s.requests.set i { r with answer := some false }
      answeredAt := s.resource.runs.length
      operationsRef := withRolledBackOperation s.operationsRef r.workId
      queuedOperations := some (withRolledBackOperation s.operationsRef r.workId) } := by
    unfold UseWishlist.answered
    dsimp only
    rw [if_neg (by rw [halive]; decide), if_neg (by decide), if_neg (by decide)]
    rfl
  rw [hanswered] at hafter ⊢
  have hshown := hafter.isMember_eq halive hdata
  have hget : ∀ w, (withRolledBackOperation s.operationsRef r.workId).get w = _ :=
    get_withRolledBackOperation hentry
  constructor
  · intro w hw
    rw [hshown, h.isMember_eq halive hdata w, ← h.synced hpending]
    show (match (withRolledBackOperation s.operationsRef r.workId).get w with
      | some operation => operation.intent.kind.present
      | none => isInWishlist data.items w) = _
    rw [hget, if_neg hw]
  · have hown := hshown r.workId
    change _ = (match (withRolledBackOperation s.operationsRef r.workId).get r.workId with
      | some operation => operation.intent.kind.present
      | none => isInWishlist data.items r.workId) at hown
    rw [hget, if_pos rfl] at hown
    cases previous with
    | some previous => exact Or.inl (hown.trans hrestores.symm)
    | none =>
      obtain ⟨old, hold, hwas⟩ := hrestores
      by_cases hsame : r.overData = s.lastData
      · rw [hold, hdata] at hsame
        cases hsame
        exact Or.inl (hown.trans hwas.symm)
      · exact Or.inr ⟨hsame, data, hdata, hown⟩

end UseWishlist

end Bookswap
