import Bookswap.Lib.Machine
import Bookswap.Domain

/-!
# avatar.service.ts: the profile photo

An upload stores the new photo, points the profile at it, and then deletes the photo it had read
when it began; a removal does the last two with no photo. The storage call, the `UPDATE` and the
deletion are three steps, with any other requests of the same person between them.

- `keyUnder`, `urlUnder`: the address of a stored photo, and the key behind an address.
- `AvatarRequest`: where a request is; `Avatars`, `Avatars.Step`: one person's profile, the storage
  and the requests.
- `avatars`: the machine.
-/

namespace Bookswap

/-! ## avatar-storage.ts -/

/-- `urlFor` of a storage whose every photo sits directly under one base address. -/
def urlUnder (baseUrl key : String) : String := baseUrl ++ "/" ++ key

/-- The key behind one of the storage's own addresses. -/
def keyUnder (baseUrl url : String) : Option String :=
  let start := baseUrl ++ "/"
  if start.toList.isPrefixOf url.toList ∧ url.length > start.length then
    some (.ofList (url.toList.drop start.length))
  else none

/-- An address of the storage leads back to its key. -/
theorem keyUnder_urlUnder {baseUrl key : String} (hkey : key ≠ "") :
    keyUnder baseUrl (urlUnder baseUrl key) = some key := by
  have hlength : 0 < key.length := by
    refine Nat.pos_of_ne_zero fun h => hkey ?_
    rw [← String.length_toList, List.length_eq_zero_iff] at h
    exact String.toList_eq_nil_iff.mp h
  have hlist : (urlUnder baseUrl key).toList = (baseUrl ++ "/").toList ++ key.toList :=
    String.toList_append
  have hstarts : (baseUrl ++ "/").toList.isPrefixOf (urlUnder baseUrl key).toList = true := by
    rw [hlist]
    exact List.isPrefixOf_iff_prefix.mpr (List.prefix_append _ _)
  have hlonger : (urlUnder baseUrl key).length > (baseUrl ++ "/").length := by
    rw [← String.length_toList, hlist, List.length_append, String.length_toList,
      String.length_toList]
    omega
  unfold keyUnder
  dsimp only
  rw [if_pos ⟨hstarts, hlonger⟩, hlist, ← String.length_toList, List.drop_left,
    String.ofList_toList]

/-- A new random key per upload. -/
def avatarKey (userId : UserId) (uuid : String) : String := s!"avatars/{userId}/{uuid}.webp"

theorem avatarKey_ne_empty (userId : UserId) (uuid : String) : avatarKey userId uuid ≠ "" := by
  intro h
  have hlist := congrArg String.toList h
  simp [avatarKey] at hlist

/-! ## avatar.service.ts -/

/-- Where a request is; `old` is the address that the profile had when the request began. -/
inductive AvatarRequest
  /-- `upload`, before `storage.put`. -/
  | storing (old : Option String) (key : String)
  /-- `upload`, before the `UPDATE`. -/
  | publishing (old : Option String) (key : String)
  /-- `remove`, before the `UPDATE`. -/
  | clearing (old : Option String)
  /-- `forget`, before `storage.delete`. -/
  | forgetting (key : String)
  | ended
  deriving DecidableEq, Repr

/-- `forgetUrl`: only this storage's own photos. -/
def forgetUrl (baseUrl : String) (url : Option String) : AvatarRequest :=
  match url.bind (keyUnder baseUrl) with
  | none => .ended
  | some key => .forgetting key

/-- The profile of one person, the keys of the stored objects, the keys that have been drawn, and
the requests. -/
structure Avatars where
  avatarUrl : Option String
  objects : List String
  drawn : List String
  requests : Nat → Option AvatarRequest

inductive AvatarOp
  | upload (r : Nat) (uuid : String)
  | remove (r : Nat)
  | put (r : Nat) (stored answered : Bool)
  | update (r : Nat) (committed : Bool)
  | delete (r : Nat) (deleted : Bool)
  deriving DecidableEq, Repr

namespace Avatars

def move (s : Avatars) (r : Nat) (request : AvatarRequest) : Avatars :=
  { s with requests := Function.update s.requests r (some request) }

@[simp] theorem move_avatarUrl (s : Avatars) (r : Nat) (request : AvatarRequest) :
    (s.move r request).avatarUrl = s.avatarUrl := rfl

@[simp] theorem move_objects (s : Avatars) (r : Nat) (request : AvatarRequest) :
    (s.move r request).objects = s.objects := rfl

@[simp] theorem move_drawn (s : Avatars) (r : Nat) (request : AvatarRequest) :
    (s.move r request).drawn = s.drawn := rfl

/-- The profile shows the photo of the key. -/
def Shows (baseUrl : String) (s : Avatars) (key : String) : Prop :=
  s.avatarUrl.bind (keyUnder baseUrl) = some key

/-- The steps. A key is drawn once. -/
inductive Step (baseUrl : String) (userId : UserId) : Avatars → AvatarOp → Avatars → Prop
  | upload {s : Avatars} {r : Nat} {uuid : String} : s.requests r = none →
      avatarKey userId uuid ∉ s.drawn →
      Step baseUrl userId s (.upload r uuid)
        { s.move r (.storing s.avatarUrl (avatarKey userId uuid)) with
          drawn := avatarKey userId uuid :: s.drawn }
  | remove {s : Avatars} {r : Nat} : s.requests r = none →
      Step baseUrl userId s (.remove r) (s.move r (.clearing s.avatarUrl))
  /-- A call that fails may have stored the object all the same; the request ends. -/
  | put {s : Avatars} {r : Nat} {old : Option String} {key : String} {stored answered : Bool} :
      s.requests r = some (.storing old key) → (answered = true → stored = true) →
      Step baseUrl userId s (.put r stored answered)
        { s.move r (if answered then .publishing old key else .ended) with
          objects := if stored then key :: s.objects else s.objects }
  | publish {s : Avatars} {r : Nat} {old : Option String} {key : String} :
      s.requests r = some (.publishing old key) →
      Step baseUrl userId s (.update r true)
        { s.move r (forgetUrl baseUrl old) with avatarUrl := some (urlUnder baseUrl key) }
  /-- The `UPDATE` failed and nothing was committed: the new photo is forgotten. -/
  | publishFails {s : Avatars} {r : Nat} {old : Option String} {key : String} :
      s.requests r = some (.publishing old key) →
      Step baseUrl userId s (.update r false) (s.move r (.forgetting key))
  | clear {s : Avatars} {r : Nat} {old : Option String} :
      s.requests r = some (.clearing old) →
      Step baseUrl userId s (.update r true)
        { s.move r (forgetUrl baseUrl old) with avatarUrl := none }
  | clearFails {s : Avatars} {r : Nat} {old : Option String} :
      s.requests r = some (.clearing old) →
      Step baseUrl userId s (.update r false) (s.move r .ended)
  /-- Best-effort: a failure is logged, whether or not the object is gone. -/
  | delete {s : Avatars} {r : Nat} {key : String} {deleted : Bool} :
      s.requests r = some (.forgetting key) →
      Step baseUrl userId s (.delete r deleted)
        { s.move r .ended with
          objects := if deleted then s.objects.filter (· ≠ key) else s.objects }

/-- The profile shows no photo, someone else's, or a stored one; the stored keys have been drawn. -/
structure Init (baseUrl : String) (s : Avatars) : Prop where
  shown : ∀ key, s.Shows baseUrl key → key ∈ s.objects
  drawn : ∀ key ∈ s.objects, key ∈ s.drawn
  no_requests : ∀ r, s.requests r = none

end Avatars

/-- The machine of one person's photo. -/
def avatars (baseUrl : String) (userId : UserId) : Machine Avatars AvatarOp where
  init := Avatars.Init baseUrl
  step := Avatars.Step baseUrl userId

end Bookswap
