import Bookswap.Users.AvatarService

/-!
# The profile photo never dangles

A key is published by the one request that drew it, and never again once it is replaced. So the
photo that a request deletes after its own `UPDATE` is shown no more, and nobody is going to show
it.

- `PhotoInv`: who may still publish a key, who has read it and who deletes it.
- `photo_exists`: what the profile shows is there, in every state.
- `delete_spares`: no request deletes what another may still publish.
-/

namespace Bookswap

/-! ## Who has which key -/

/-- The key that the request may still publish. -/
def AvatarRequest.mayPublish : AvatarRequest → Option String
  | .storing _ key | .publishing _ key => some key
  | _ => none

/-- The key of the photo that the request is going to delete after its `UPDATE`. -/
def AvatarRequest.replaces (baseUrl : String) : AvatarRequest → Option String
  | .storing old _ | .publishing old _ | .clearing old => old.bind (keyUnder baseUrl)
  | _ => none

/-- The key that the request deletes now. -/
def AvatarRequest.forgets : AvatarRequest → Option String
  | .forgetting key => some key
  | _ => none

theorem forgetUrl_mayPublish (baseUrl : String) (url : Option String) :
    (forgetUrl baseUrl url).mayPublish = none := by
  unfold forgetUrl
  split <;> rfl

theorem forgetUrl_replaces (baseUrl : String) (url : Option String) :
    (forgetUrl baseUrl url).replaces baseUrl = none := by
  unfold forgetUrl
  split <;> rfl

theorem forgetUrl_forgets (baseUrl : String) (url : Option String) :
    (forgetUrl baseUrl url).forgets = url.bind (keyUnder baseUrl) := by
  unfold forgetUrl
  split
  · next h => exact h.symm
  · next h => exact h.symm

namespace Avatars

variable {baseUrl : String} {userId : UserId} {s s' : Avatars}

/-- A request that may still publish the key. -/
def Publisher (s : Avatars) (r : Nat) (key : String) : Prop :=
  ∃ request, s.requests r = some request ∧ request.mayPublish = some key

/-- **The invariant.** -/
structure PhotoInv (baseUrl : String) (s : Avatars) : Prop where
  shown : ∀ key, s.Shows baseUrl key → key ∈ s.objects ∧ key ∈ s.drawn
  nonempty : ∀ r key, s.Publisher r key → key ≠ ""
  drawn : ∀ r key, s.Publisher r key → key ∈ s.drawn
  unshown : ∀ r key, s.Publisher r key → ¬ s.Shows baseUrl key
  one : ∀ r q key, s.Publisher r key → s.Publisher q key → r = q
  stored : ∀ r old key, s.requests r = some (.publishing old key) → key ∈ s.objects
  objects : ∀ key ∈ s.objects, key ∈ s.drawn
  replaced : ∀ r request key, s.requests r = some request → request.replaces baseUrl = some key →
    key ∈ s.drawn ∧ ∀ q, ¬ s.Publisher q key
  forgotten : ∀ r request key, s.requests r = some request → request.forgets = some key →
    key ∈ s.drawn ∧ ¬ s.Shows baseUrl key ∧ ∀ q, ¬ s.Publisher q key

theorem PhotoInv.init (h : s.Init baseUrl) : s.PhotoInv baseUrl := by
  have hno : ∀ {r key}, ¬ s.Publisher r key := by
    rintro r key ⟨request, hr, -⟩
    rw [h.no_requests r] at hr
    cases hr
  refine ⟨fun key hkey => ⟨h.shown key hkey, h.drawn key (h.shown key hkey)⟩,
    fun r key hr => (hno hr).elim, fun r key hr => (hno hr).elim, fun r key hr => (hno hr).elim,
    fun r q key hr => (hno hr).elim, fun r old key hr => ?_, h.drawn, fun r request key hr => ?_,
    fun r request key hr => ?_⟩
  all_goals
    rw [h.no_requests r] at hr
    cases hr

@[simp] theorem move_self (r : Nat) (request : AvatarRequest) :
    (s.move r request).requests r = some request := Function.update_self ..

theorem move_other {r q : Nat} (request : AvatarRequest) (h : q ≠ r) :
    (s.move r request).requests q = s.requests q := Function.update_of_ne h ..

theorem move_move (r : Nat) (request request' : AvatarRequest) :
    (s.move r request).move r request' = s.move r request' := by
  unfold move
  rw [Function.update_idem]

/-- A request of the moved state is the moved one or one of before. -/
theorem requests_move {r q : Nat} {request request' : AvatarRequest}
    (h : (s.move r request).requests q = some request') :
    (q = r ∧ request' = request) ∨ (q ≠ r ∧ s.requests q = some request') := by
  by_cases hq : q = r
  · subst hq
    rw [move_self] at h
    exact .inl ⟨rfl, (Option.some.inj h).symm⟩
  · rw [move_other request hq] at h
    exact .inr ⟨hq, h⟩

/-- Who may publish after the request `r` has moved. -/
theorem publisher_of_move {r q : Nat} {request : AvatarRequest} {key : String}
    (h : (s.move r request).Publisher q key) :
    (q = r ∧ request.mayPublish = some key) ∨ (q ≠ r ∧ s.Publisher q key) := by
  obtain ⟨request', hq, hkey⟩ := h
  rcases requests_move hq with ⟨rfl, rfl⟩ | ⟨hne, hq⟩
  · exact .inl ⟨rfl, hkey⟩
  · exact .inr ⟨hne, request', hq, hkey⟩

/-- A key that the request publishes no more. -/
theorem publisher_of_move_none {r q : Nat} {request : AvatarRequest} {key : String}
    (hnone : request.mayPublish = none) (h : (s.move r request).Publisher q key) :
    q ≠ r ∧ s.Publisher q key := by
  rcases publisher_of_move h with ⟨-, hkey⟩ | h
  · rw [hnone] at hkey
    cases hkey
  · exact h

/-! ## What each statement keeps -/

namespace PhotoInv

variable (h : s.PhotoInv baseUrl)

include h

/-- The request publishes nothing any more; what it deletes, nobody shows or may publish. -/
theorem move {r : Nat} {request : AvatarRequest} (hpublish : request.mayPublish = none)
    (hreplaces : ∀ key, request.replaces baseUrl = some key → key ∈ s.drawn ∧
      ∀ q, ¬ s.Publisher q key)
    (hforgets : ∀ key, request.forgets = some key → key ∈ s.drawn ∧ ¬ s.Shows baseUrl key ∧
      ∀ q, q ≠ r → ¬ s.Publisher q key) : (s.move r request).PhotoInv baseUrl where
  shown := h.shown
  nonempty q key hq := h.nonempty q key (publisher_of_move_none hpublish hq).2
  drawn q key hq := h.drawn q key (publisher_of_move_none hpublish hq).2
  unshown q key hq := h.unshown q key (publisher_of_move_none hpublish hq).2
  one q q' key hq hq' := h.one q q' key (publisher_of_move_none hpublish hq).2
    (publisher_of_move_none hpublish hq').2
  stored q old key hq := by
    rcases requests_move hq with ⟨-, hrequest⟩ | ⟨-, hq⟩
    · rw [← hrequest] at hpublish
      cases hpublish
    · exact h.stored q old key hq
  objects := h.objects
  replaced q request' key hq hkey := by
    have hold : key ∈ s.drawn ∧ ∀ q, ¬ s.Publisher q key := by
      rcases requests_move hq with ⟨-, rfl⟩ | ⟨-, hq⟩
      · exact hreplaces key hkey
      · exact h.replaced q request' key hq hkey
    exact ⟨hold.1, fun q' hq' => hold.2 q' (publisher_of_move_none hpublish hq').2⟩
  forgotten q request' key hq hkey := by
    have hold : key ∈ s.drawn ∧ ¬ s.Shows baseUrl key ∧ ∀ q, q ≠ r → ¬ s.Publisher q key := by
      rcases requests_move hq with ⟨-, rfl⟩ | ⟨-, hq⟩
      · exact hforgets key hkey
      · obtain ⟨hdrawn, hshown, hpublisher⟩ := h.forgotten q request' key hq hkey
        exact ⟨hdrawn, hshown, fun q _ => hpublisher q⟩
    refine ⟨hold.1, hold.2.1, fun q' hq' => ?_⟩
    obtain ⟨hne, hq'⟩ := publisher_of_move_none hpublish hq'
    exact hold.2.2 q' hne hq'

/-- A request that is over. -/
theorem ended (r : Nat) : (s.move r .ended).PhotoInv baseUrl :=
  h.move rfl (fun _ hkey => nomatch hkey) (fun _ hkey => nomatch hkey)

/-- Another photo is shown, or none: one that nobody may publish again or deletes. -/
theorem «show» {url : Option String} (hurl : ∀ key, url.bind (keyUnder baseUrl) = some key →
    key ∈ s.objects ∧ key ∈ s.drawn ∧ (∀ q, ¬ s.Publisher q key) ∧
      ∀ q request, s.requests q = some request → request.forgets ≠ some key) :
    PhotoInv baseUrl { s with avatarUrl := url } where
  shown key hkey := ⟨(hurl key hkey).1, (hurl key hkey).2.1⟩
  nonempty := h.nonempty
  drawn := h.drawn
  unshown q key hq hkey := (hurl key hkey).2.2.1 q hq
  one := h.one
  stored := h.stored
  objects := h.objects
  replaced := h.replaced
  forgotten q request key hq hkey :=
    ⟨(h.forgotten q request key hq hkey).1, fun hshown => (hurl key hshown).2.2.2 q request hq hkey,
      (h.forgotten q request key hq hkey).2.2⟩

/-- The objects of the storage change, but what is shown or about to be stays. -/
theorem keep {objects : List String} (hdrawn : ∀ key ∈ objects, key ∈ s.drawn)
    (hshown : ∀ key, s.Shows baseUrl key → key ∈ objects)
    (hstored : ∀ r old key, s.requests r = some (.publishing old key) → key ∈ objects) :
    PhotoInv baseUrl { s with objects := objects } where
  shown key hkey := ⟨hshown key hkey, (h.shown key hkey).2⟩
  nonempty := h.nonempty
  drawn := h.drawn
  unshown := h.unshown
  one := h.one
  stored := hstored
  objects := hdrawn
  replaced := h.replaced
  forgotten := h.forgotten

/-- The photo is stored. -/
theorem publishing {r : Nat} {old : Option String} {key : String}
    (hr : s.requests r = some (.storing old key)) (hkey : key ∈ s.objects) :
    (s.move r (.publishing old key)).PhotoInv baseUrl := by
  have hpublisher : ∀ {q key'}, (s.move r (.publishing old key)).Publisher q key' →
      s.Publisher q key' := by
    intro q key' hq
    rcases publisher_of_move hq with ⟨rfl, hkey'⟩ | ⟨-, hq⟩
    · exact ⟨_, hr, hkey'⟩
    · exact hq
  refine ⟨h.shown, fun q key' hq => h.nonempty q key' (hpublisher hq),
    fun q key' hq => h.drawn q key' (hpublisher hq),
    fun q key' hq => h.unshown q key' (hpublisher hq),
    fun q q' key' hq hq' => h.one q q' key' (hpublisher hq) (hpublisher hq'), ?_, h.objects, ?_, ?_⟩
  · intro q old' key' hq
    rcases requests_move hq with ⟨-, hrequest⟩ | ⟨-, hq⟩
    · cases hrequest
      exact hkey
    · exact h.stored q old' key' hq
  · intro q request key' hq hkey'
    have hold : key' ∈ s.drawn ∧ ∀ q, ¬ s.Publisher q key' := by
      rcases requests_move hq with ⟨-, rfl⟩ | ⟨-, hq⟩
      · exact h.replaced r _ key' hr hkey'
      · exact h.replaced q request key' hq hkey'
    exact ⟨hold.1, fun q' hq' => hold.2 q' (hpublisher hq')⟩
  · intro q request key' hq hkey'
    rcases requests_move hq with ⟨-, rfl⟩ | ⟨-, hq⟩
    · cases hkey'
    · obtain ⟨hdrawn, hshown, hnone⟩ := h.forgotten q request key' hq hkey'
      exact ⟨hdrawn, hshown, fun q' hq' => hnone q' (hpublisher hq')⟩

/-- A key is drawn for a new upload. -/
theorem storing {r : Nat} {key : String} (hfresh : key ∉ s.drawn) (hkey : key ≠ "") :
    PhotoInv baseUrl { s.move r (.storing s.avatarUrl key) with drawn := key :: s.drawn } := by
  have hpublisher : ∀ {q key'}, (s.move r (.storing s.avatarUrl key)).Publisher q key' →
      (q = r ∧ key' = key) ∨ (q ≠ r ∧ s.Publisher q key') := by
    intro q key' hq
    rcases publisher_of_move hq with ⟨rfl, hkey'⟩ | h
    · exact .inl ⟨rfl, (Option.some.inj hkey').symm⟩
    · exact .inr h
  have hold : ∀ {key'}, key' ∈ s.drawn → key' ≠ key := fun hmem heq => hfresh (heq ▸ hmem)
  refine ⟨fun key' hshown => ⟨(h.shown key' hshown).1, List.mem_cons_of_mem _ (h.shown key' hshown).2⟩,
    ?_, ?_, ?_, ?_, ?_, fun key' hkey' => List.mem_cons_of_mem _ (h.objects key' hkey'), ?_, ?_⟩
  · intro q key' hq
    rcases hpublisher hq with ⟨-, rfl⟩ | ⟨-, hq⟩
    · exact hkey
    · exact h.nonempty q key' hq
  · intro q key' hq
    rcases hpublisher hq with ⟨-, rfl⟩ | ⟨-, hq⟩
    · exact List.mem_cons_self
    · exact List.mem_cons_of_mem _ (h.drawn q key' hq)
  · intro q key' hq hshown
    rcases hpublisher hq with ⟨-, rfl⟩ | ⟨-, hq⟩
    · exact hfresh (h.shown _ hshown).2
    · exact h.unshown q key' hq hshown
  · intro q q' key' hq hq'
    rcases hpublisher hq with ⟨hqr, heq⟩ | ⟨-, hp⟩ <;>
      rcases hpublisher hq' with ⟨hqr', heq'⟩ | ⟨-, hp'⟩
    · exact hqr.trans hqr'.symm
    · exact absurd heq (hold (h.drawn q' _ hp'))
    · exact absurd heq' (hold (h.drawn q _ hp))
    · exact h.one q q' key' hp hp'
  · intro q old key' hq
    rcases requests_move hq with ⟨-, hrequest⟩ | ⟨-, hq⟩
    · cases hrequest
    · exact h.stored q old key' hq
  · intro q request key' hq hkey'
    have hread : key' ∈ s.drawn ∧ ∀ q, ¬ s.Publisher q key' := by
      rcases requests_move hq with ⟨-, rfl⟩ | ⟨-, hq⟩
      · -- what the profile shows now, nobody may publish again
        exact ⟨(h.shown key' hkey').2, fun q' hq' => h.unshown q' key' hq' hkey'⟩
      · exact h.replaced q request key' hq hkey'
    refine ⟨List.mem_cons_of_mem _ hread.1, fun q' hq' => ?_⟩
    rcases hpublisher hq' with ⟨-, heq⟩ | ⟨-, hq'⟩
    · exact hold hread.1 heq
    · exact hread.2 q' hq'
  · intro q request key' hq hkey'
    rcases requests_move hq with ⟨-, rfl⟩ | ⟨-, hq⟩
    · cases hkey'
    · obtain ⟨hdrawn, hshown, hnone⟩ := h.forgotten q request key' hq hkey'
      refine ⟨List.mem_cons_of_mem _ hdrawn, hshown, fun q' hq' => ?_⟩
      rcases hpublisher hq' with ⟨-, heq⟩ | ⟨-, hq'⟩
      · exact hold hdrawn heq
      · exact hnone q' hq'

/-- **After its `UPDATE` a request deletes what it had read.** -/
theorem forgetUrl {r : Nat} (old : Option String)
    (hold : ∀ key, old.bind (keyUnder baseUrl) = some key → key ∈ s.drawn ∧
      ¬ s.Shows baseUrl key ∧ ∀ q, ¬ s.Publisher q key) :
    (s.move r (forgetUrl baseUrl old)).PhotoInv baseUrl := by
  refine h.move (forgetUrl_mayPublish baseUrl old) (fun key hkey => ?_) (fun key hkey => ?_)
  · rw [forgetUrl_replaces] at hkey
    cases hkey
  · rw [forgetUrl_forgets] at hkey
    obtain ⟨hdrawn, hshown, hnone⟩ := hold key hkey
    exact ⟨hdrawn, hshown, fun q _ => hnone q⟩

end PhotoInv

/-! ## Steps -/

/-- **Every step keeps the invariant.** -/
theorem PhotoInv.step {op : AvatarOp} (h : s.PhotoInv baseUrl) (hs : Step baseUrl userId s op s') :
    s'.PhotoInv baseUrl := by
  cases hs with
  | upload hnone hfresh => exact h.storing hfresh (avatarKey_ne_empty userId _)
  | remove hnone =>
    refine h.move rfl (fun key hkey => ?_) (fun key hkey => nomatch hkey)
    exact ⟨(h.shown key hkey).2, fun q hq => h.unshown q key hq hkey⟩
  | @put r old key stored answered hr himplies =>
    have hkey := h.drawn r key ⟨_, hr, rfl⟩
    have hstored : PhotoInv baseUrl
        { s with objects := if stored then key :: s.objects else s.objects } := by
      refine h.keep (fun key' hkey' => ?_) (fun key' hshown => ?_) (fun q old' key' hq => ?_)
      · cases stored with
        | true => exact (List.mem_cons.mp hkey').elim (fun heq => heq ▸ hkey) (h.objects key')
        | false => exact h.objects key' hkey'
      · have hmem := (h.shown key' hshown).1
        cases stored with
        | true => exact List.mem_cons_of_mem _ hmem
        | false => exact hmem
      · have hmem := h.stored q old' key' hq
        cases stored with
        | true => exact List.mem_cons_of_mem _ hmem
        | false => exact hmem
    cases answered with
    | false => exact hstored.ended r
    | true =>
      rw [himplies rfl] at hstored ⊢
      exact hstored.publishing hr List.mem_cons_self
  | @publish r old key hr =>
    have hpublisher : s.Publisher r key := ⟨_, hr, rfl⟩
    have hkey : ∀ key', (some (urlUnder baseUrl key)).bind (keyUnder baseUrl) = some key' →
        key' = key := by
      intro key' hkey'
      rw [Option.bind_some, keyUnder_urlUnder (h.nonempty r key hpublisher)] at hkey'
      exact (Option.some.inj hkey').symm
    have hended := h.ended r
    have hshows : PhotoInv baseUrl
        { s.move r .ended with avatarUrl := some (urlUnder baseUrl key) } := by
      refine hended.show fun key' hkey' => ?_
      obtain rfl := hkey key' hkey'
      refine ⟨h.stored r old _ hr, h.drawn r _ hpublisher, fun q hq => ?_, fun q request hq hf => ?_⟩
      · obtain ⟨hne, hq⟩ := publisher_of_move_none rfl hq
        exact hne (h.one q r _ hq hpublisher)
      · rcases requests_move hq with ⟨-, rfl⟩ | ⟨-, hq⟩
        · cases hf
        · exact (h.forgotten q request _ hq hf).2.2 r hpublisher
    have hforgets := hshows.forgetUrl (r := r) old fun key' hold => ?_
    · rw [show Avatars.move _ r (Bookswap.forgetUrl baseUrl old) =
          { s.move r (Bookswap.forgetUrl baseUrl old) with
            avatarUrl := some (urlUnder baseUrl key) } from by
        unfold Avatars.move
        rw [Function.update_idem]] at hforgets
      exact hforgets
    · obtain ⟨hdrawn, hnone⟩ := h.replaced r _ key' hr hold
      refine ⟨hdrawn, fun hshown => ?_, fun q hq => hnone q (publisher_of_move_none rfl hq).2⟩
      exact hnone r (hkey key' hshown ▸ hpublisher)
  | publishFails hr =>
    refine h.move rfl (fun key hkey => nomatch hkey) (fun key' hkey' => ?_)
    cases hkey'
    have hpublisher : s.Publisher _ _ := ⟨_, hr, rfl⟩
    exact ⟨h.drawn _ _ hpublisher, h.unshown _ _ hpublisher,
      fun q hne hq => hne (h.one q _ _ hq hpublisher)⟩
  | @clear r old hr =>
    have hshows : PhotoInv baseUrl { s with avatarUrl := none } :=
      h.show fun key hkey => nomatch hkey
    exact hshows.forgetUrl _ fun key hold =>
      ⟨(h.replaced r _ key hr hold).1, (fun hshown => nomatch hshown), (h.replaced r _ key hr hold).2⟩
  | clearFails hr => exact h.ended _
  | @delete r key deleted hr =>
    have hdeleted : PhotoInv baseUrl
        { s with objects := if deleted then s.objects.filter (· ≠ key) else s.objects } := by
      obtain ⟨-, hshown, hnone⟩ := h.forgotten r _ key hr rfl
      cases deleted with
      | false => exact h
      | true =>
        refine h.keep (fun key' hkey' => h.objects key' (List.mem_of_mem_filter hkey'))
          (fun key' hshows => List.mem_filter.mpr ⟨(h.shown key' hshows).1, ?_⟩)
          (fun q old key' hq => List.mem_filter.mpr ⟨h.stored q old key' hq, ?_⟩)
        · exact decide_eq_true fun heq => hshown (heq ▸ hshows)
        · exact decide_eq_true fun heq => hnone q ⟨_, hq, congrArg some heq⟩
    exact hdeleted.ended r

theorem PhotoInv.of_reachable (h : (avatars baseUrl userId).Reachable s) : s.PhotoInv baseUrl :=
  h.invariant (fun _ => PhotoInv.init) fun _ _ _ _ hi hs => hi.step hs

/-! ## The guarantee -/

/-- The address is none, someone else's, or that of a stored photo. -/
def Resolves (baseUrl : String) (s : Avatars) : Prop :=
  ∀ url key, s.avatarUrl = some url → keyUnder baseUrl url = some key → key ∈ s.objects

/-- What a step takes out of the storage, no other request has stored or may publish. -/
def SparesOthers (baseUrl : String) (userId : UserId) (s : Avatars) : Prop :=
  ∀ op s', Step baseUrl userId s op s' → ∀ key ∈ s.objects, key ∉ s'.objects →
    ∀ r request, s.requests r = some request → request.mayPublish ≠ some key

/-- **The profile photo never dangles**, and no request deletes the photo of another. -/
theorem photo_never_dangles (h : (avatars baseUrl userId).Reachable s) :
    Resolves baseUrl s ∧ SparesOthers baseUrl userId s := by
  have hinv := PhotoInv.of_reachable h
  constructor
  · intro url key hurl hkey
    refine (hinv.shown key ?_).1
    rw [Shows, hurl, Option.bind_some, hkey]
  · intro op s' hs key hkey hgone q request hq hpublish
    cases hs with
    | @delete r key' deleted hr =>
      cases deleted with
      | false => exact hgone hkey
      | true =>
        have heq : key = key' := by
          by_contra hne
          exact hgone (List.mem_filter.mpr ⟨hkey, decide_eq_true hne⟩)
        subst heq
        exact (hinv.forgotten r _ key hr rfl).2.2 q ⟨request, hq, hpublish⟩
    | @put r old key' stored answered hr himplies =>
      cases stored with
      | false => exact hgone hkey
      | true => exact hgone (List.mem_cons_of_mem _ hkey)
    | _ => exact hgone hkey

/-- Of two uploads that both found no photo, the second has published its own; the first photo is
left in the storage. -/
theorem photo_never_dangles_twoUploads : ∃ s : Avatars,
    (avatars "https://photos" 1).Reachable s ∧
      s.avatarUrl = some (urlUnder "https://photos" (avatarKey 1 "b")) ∧
      avatarKey 1 "a" ∈ s.objects ∧ Resolves "https://photos" s ∧
      SparesOthers "https://photos" 1 s := by
  have hstart : (avatars "https://photos" 1).Reachable ⟨none, [], [], fun _ => none⟩ :=
    .start ⟨fun _ h => (nomatch h), fun _ h => (nomatch h), fun _ => rfl⟩
  have hnext : ∀ {s s' : Avatars} {op : AvatarOp}, (avatars "https://photos" 1).Reachable s →
      Step "https://photos" 1 s op s' → (avatars "https://photos" 1).Reachable s' :=
    fun h hs => h.next hs
  have hfirst := hnext hstart (@Step.upload _ _ _ 0 "a" rfl List.not_mem_nil)
  have hsecond := hnext hfirst (@Step.upload _ _ _ 1 "b" rfl (by decide))
  have hstored := hnext hsecond (@Step.put _ _ _ 0 _ _ true true rfl fun _ => rfl)
  have hboth := hnext hstored (@Step.put _ _ _ 1 _ _ true true rfl fun _ => rfl)
  have hpublished := hnext hboth (@Step.publish _ _ _ 0 _ _ rfl)
  have hreplaced := hnext hpublished (@Step.publish _ _ _ 1 _ _ rfl)
  have hsafe := photo_never_dangles hreplaced
  exact ⟨_, hreplaced, rfl, List.mem_cons_of_mem _ List.mem_cons_self, hsafe⟩

end Avatars

end Bookswap
