import Bookswap.Catalog.WorkRows
import Bookswap.Lib.Table

/-!
# Merges beside other writers

What each writer of rows on a work guarantees at its commit, whatever the others do meanwhile. From
it: no merged work ever points to a merged one, and, but for two writers that do not lock the work,
nothing is left on a merged work.

- `WorkRely`: what the others leave alone of the works that a transaction has locked.
- `Merging`, `MergePost`, `WriterPost`: what a merge and the other writers have done when they
  commit.
- `workWriters_proved`: every script does so; `merge_forest`, `nothing_left`.
-/

namespace Bookswap

open ReadCommitted RowLocks

/-! ## What the others leave alone -/

/-- Of a work that is locked: it stays unmerged. Of one that is locked for `UPDATE`: no row and no
merged work comes to it. -/
structure WorkRely (ls : List (RowLock WorkId)) (s s' : WorkRows) : Prop where
  unmerged : ∀ n ∈ ls, ⟨n.row, none⟩ ∈ s.works → ⟨n.row, none⟩ ∈ s'.works
  rows : ∀ n ∈ ls, n.mode = .update → ∀ table, ∀ r ∈ s'.rows table, r.workId = n.row →
    ∃ q ∈ s.rows table, q.id = r.id ∧ q.workId = n.row
  incoming : ∀ n ∈ ls, n.mode = .update → ∀ w ∈ s'.works, w.mergedIntoId = some n.row →
    w ∈ s.works
  present : ∀ w ∈ s.works, ∃ w' ∈ s'.works, w'.id = w.id

theorem WorkRely.refl (ls : List (RowLock WorkId)) (s : WorkRows) : WorkRely ls s s where
  unmerged _ _ h := h
  rows _ _ _ _ r hr hwork := ⟨r, hr, rfl, hwork⟩
  incoming _ _ _ _ h _ := h
  present w hw := ⟨w, hw, rfl⟩

theorem WorkRely.trans {ls : List (RowLock WorkId)} {s s' s'' : WorkRows} (h : WorkRely ls s s')
    (h' : WorkRely ls s' s'') : WorkRely ls s s'' where
  unmerged n hn hw := h'.unmerged n hn (h.unmerged n hn hw)
  rows n hn hmode table r hr hwork := by
    obtain ⟨q, hq, hid, hqwork⟩ := h'.rows n hn hmode table r hr hwork
    obtain ⟨p, hp, hpid, hpwork⟩ := h.rows n hn hmode table q hq hqwork
    exact ⟨p, hp, hpid.trans hid, hpwork⟩
  incoming n hn hmode w hw hinto :=
    h.incoming n hn hmode w (h'.incoming n hn hmode w hw hinto) hinto
  present w hw := by
    obtain ⟨w', hw', hid⟩ := h.present w hw
    obtain ⟨w'', hw'', hid'⟩ := h'.present w' hw'
    exact ⟨w'', hw'', hid'.trans hid⟩

/-! ## What a merge has done -/

/-- The writes of a merge before it points the works. -/
def RowWrite.Moves (a b : WorkId) : RowWrite → Prop
  | .archive _ | .delete _ _ => True
  | .move _ _ source target => source = a ∧ target = b
  | _ => False

/-- The write takes the row away from the work. -/
def RowWrite.Takes (table : ReferenceTable) (id : Nat) : RowWrite → Prop
  | .delete table' ids | .move table' ids _ _ => table' = table ∧ id ∈ ids
  | _ => False

section Moves

variable {a b : WorkId} {ws : List RowWrite} {s : WorkRows} {table : ReferenceTable}

theorem works_of_moves (h : ∀ x ∈ ws, x.Moves a b) : (workRowsSchema.view s ws).works = s.works := by
  induction ws with
  | nil => rfl
  | cons x ws ih =>
    have hrest := ih fun y hy => h y (List.mem_cons_of_mem _ hy)
    have hx := h x List.mem_cons_self
    rw [Schema.view_cons]
    show x.created ++ (workRowsSchema.view s ws).works.map x.onWork = s.works
    rw [hrest]
    cases x with
    | archive | delete | move => exact List.map_id _
    | _ => exact hx.elim

/-- What a row was before the writes. -/
theorem row_of_moves (hab : a ≠ b) (h : ∀ x ∈ ws, x.Moves a b) {r : Reference}
    (hr : r ∈ (workRowsSchema.view s ws).rows table) :
    ∃ q ∈ s.rows table, q.id = r.id ∧ (r.workId = q.workId ∨ r.workId = b) ∧
      (r.workId = a → ∀ x ∈ ws, ¬ x.Takes table r.id) := by
  induction ws generalizing r with
  | nil => exact ⟨r, hr, rfl, .inl rfl, fun _ x hx => nomatch hx⟩
  | cons x ws ih =>
    have hx := h x List.mem_cons_self
    rw [Schema.view_cons] at hr
    change r ∈ x.added table ++ ((workRowsSchema.view s ws).rows table).filterMap (x.onRow table)
      at hr
    have hadded : x.added table = [] := by
      cases x with
      | archive | delete | move => rfl
      | _ => exact hx.elim
    rw [hadded, List.nil_append, List.mem_filterMap] at hr
    obtain ⟨p, hp, hpr⟩ := hr
    obtain ⟨q, hq, hid, hwork, htakes⟩ := ih (fun y hy => h y (List.mem_cons_of_mem _ hy)) hp
    -- one write: the row keeps its id, and is on its work or on `b`
    have hone : r.id = p.id ∧ (r.workId = p.workId ∨ r.workId = b) ∧
        (r.workId = a → p.workId = a ∧ ¬ x.Takes table r.id) := by
      cases x with
      | archive ids =>
        simp only [RowWrite.onRow, Option.some.injEq] at hpr
        subst hpr
        split <;> exact ⟨rfl, .inl rfl, fun ha => ⟨ha, id⟩⟩
      | delete table' ids =>
        simp only [RowWrite.onRow] at hpr
        split at hpr
        · cases hpr
        · next hkeeps =>
          cases hpr
          exact ⟨rfl, .inl rfl, fun ha => ⟨ha, fun ht => hkeeps ⟨ht.1.symm, ht.2⟩⟩⟩
      | move table' ids source target =>
        obtain ⟨rfl, rfl⟩ := hx
        simp only [RowWrite.onRow, Option.some.injEq] at hpr
        subst hpr
        split
        · exact ⟨rfl, .inr rfl, fun ha => absurd ha hab.symm⟩
        · next hkeeps =>
          exact ⟨rfl, .inl rfl, fun ha => ⟨ha, fun ht => hkeeps ⟨ht.1.symm, ht.2, ha⟩⟩⟩
      | _ => exact hx.elim
    obtain ⟨hrid, hrwork, hra⟩ := hone
    refine ⟨q, hq, hid.trans hrid.symm, ?_, fun ha y hy => ?_⟩
    · rcases hrwork with hsame | hb
      · rwa [hsame]
      · exact .inr hb
    · obtain ⟨hpa, hnot⟩ := hra ha
      rcases List.mem_cons.mp hy with rfl | hy
      · exact hnot
      · rw [hrid]
        exact htakes hpa y hy

/-- A row on the source that no write takes is still there. -/
theorem row_stays (h : ∀ x ∈ ws, x.Moves a b) {q : Reference} (hq : q ∈ s.rows table)
    (hwork : q.workId = a) (hstays : ∀ x ∈ ws, ¬ x.Takes table q.id) :
    q.id ∈ (workRowsSchema.view s ws).idsOn table a := by
  have hrow : ∃ r ∈ (workRowsSchema.view s ws).rows table, r.id = q.id ∧ r.workId = a := by
    induction ws with
    | nil => exact ⟨q, hq, rfl, hwork⟩
    | cons x ws ih =>
      have hx := h x List.mem_cons_self
      have htakes := hstays x List.mem_cons_self
      obtain ⟨r, hr, hid, hra⟩ := ih (fun y hy => h y (List.mem_cons_of_mem _ hy))
        fun y hy => hstays y (List.mem_cons_of_mem _ hy)
      have hkept : ∃ r', x.onRow table r = some r' ∧ r'.id = r.id ∧ r'.workId = r.workId := by
        cases x with
        | archive ids =>
          refine ⟨_, rfl, ?_⟩
          split <;> exact ⟨rfl, rfl⟩
        | delete table' ids =>
          exact ⟨r, if_neg fun hin => htakes ⟨hin.1.symm, hid ▸ hin.2⟩, rfl, rfl⟩
        | move table' ids source target =>
          refine ⟨r, congrArg some (if_neg fun hin => ?_), rfl, rfl⟩
          exact htakes ⟨hin.1.symm, hid ▸ hin.2.1⟩
        | _ => exact hx.elim
      obtain ⟨r', hr', hid', hwork'⟩ := hkept
      refine ⟨r', ?_, hid'.trans hid, hwork'.trans hra⟩
      rw [Schema.view_cons]
      exact List.mem_append_right _ (List.mem_filterMap.mpr ⟨r, hr, hr'⟩)
  obtain ⟨r, hr, hid, hra⟩ := hrow
  exact List.mem_map.mpr ⟨r, List.mem_filter.mpr ⟨hr, decide_eq_true hra⟩, hid⟩

end Moves

/-- A merge under its locks: both works are there and not merged, and the tables `moved` are done
with. -/
structure Merging (a b : WorkId) (moved : List ReferenceTable) (ls : List (RowLock WorkId))
    (s : WorkRows) (ws : List RowWrite) : Prop where
  distinct : a ≠ b
  source_locked : ⟨a, .update⟩ ∈ ls
  target_locked : ⟨b, .update⟩ ∈ ls
  source : ⟨a, none⟩ ∈ s.works
  target : ⟨b, none⟩ ∈ s.works
  moves : ∀ x ∈ ws, x.Moves a b
  taken : ∀ table ∈ moved, ∀ r ∈ s.rows table, r.workId = a → ∃ x ∈ ws, x.Takes table r.id

namespace Merging

variable {a b : WorkId} {moved : List ReferenceTable} {ls ls' : List (RowLock WorkId)}
  {s s' : WorkRows} {ws : List RowWrite}

theorem relied (h : Merging a b moved ls s ws) (hrely : WorkRely ls s s') :
    Merging a b moved ls s' ws where
  __ := h
  source := hrely.unmerged _ h.source_locked h.source
  target := hrely.unmerged _ h.target_locked h.target
  taken table htable r hr hwork := by
    obtain ⟨q, hq, hid, hqwork⟩ := hrely.rows _ h.source_locked rfl table r hr hwork
    rw [← hid]
    exact h.taken table htable q hq hqwork

theorem lock (h : Merging a b moved ls s ws) (hls : ∀ n ∈ ls, n ∈ ls') :
    Merging a b moved ls' s ws where
  __ := h
  source_locked := hls _ h.source_locked
  target_locked := hls _ h.target_locked

theorem write (h : Merging a b moved ls s ws) {x : RowWrite} (hx : x.Moves a b) :
    Merging a b moved ls s (x :: ws) where
  __ := h
  moves := List.forall_mem_cons.mpr ⟨hx, h.moves⟩
  taken table htable r hr hwork := by
    obtain ⟨y, hy, htakes⟩ := h.taken table htable r hr hwork
    exact ⟨y, List.mem_cons_of_mem _ hy, htakes⟩

/-- The `UPDATE` of a table leaves nothing on the source. -/
theorem move (h : Merging a b moved ls s ws) (table : ReferenceTable) :
    Merging a b (table :: moved) ls s
      (.move table ((workRowsSchema.view s ws).idsOn table a) a b :: ws) where
  __ := h
  moves := List.forall_mem_cons.mpr ⟨⟨rfl, rfl⟩, h.moves⟩
  taken table' htable' r hr hwork := by
    by_cases htakes : ∃ x ∈ ws, x.Takes table' r.id
    · obtain ⟨x, hx, htakes⟩ := htakes
      exact ⟨x, List.mem_cons_of_mem _ hx, htakes⟩
    · rcases List.mem_cons.mp htable' with rfl | hmoved
      · push Not at htakes
        exact ⟨_, List.mem_cons_self, rfl, row_stays h.moves hr hwork htakes⟩
      · exact absurd (h.taken table' hmoved r hr hwork) htakes

end Merging

/-- What a merge has written when it commits. -/
def MergePost (a b : WorkId) (ls : List (RowLock WorkId)) (s : WorkRows) (ws : List RowWrite) :
    Prop :=
  ∃ moves incoming, ws = .point a b :: .repoint incoming a b :: moves ∧
    (∀ moved, Merging a b moved ls s moves) ∧
    ∀ w ∈ s.works, w.mergedIntoId = some a → w.id ∈ incoming

theorem MergePost.relied {a b : WorkId} {ls : List (RowLock WorkId)} {s s' : WorkRows}
    {ws : List RowWrite} (h : MergePost a b ls s ws) (hrely : WorkRely ls s s') :
    MergePost a b ls s' ws := by
  obtain ⟨moves, incoming, rfl, hmerging, hincoming⟩ := h
  refine ⟨moves, incoming, rfl, fun moved => (hmerging moved).relied hrely, fun w hw hinto => ?_⟩
  exact hincoming w (hrely.incoming _ (hmerging []).source_locked rfl w hw hinto) hinto

/-! ## What the other writers have done -/

/-- The write is of a row on the work. -/
def RowWrite.On (workId : WorkId) : RowWrite → Prop
  | .insert _ row => row.workId = workId
  | .setStatus _ _ _ => True
  | _ => False

/-- What a writer of rows on a work has written when it commits. -/
structure WriterPost (workId : WorkId) (ls : List (RowLock WorkId)) (s : WorkRows)
    (ws : List RowWrite) : Prop where
  locked : ∃ n ∈ ls, n.row = workId
  present : ∃ w ∈ s.works, w.id = workId
  on : ∀ x ∈ ws, x.On workId

/-- What is written of a new work. -/
def NewPost (workId : WorkId) (ls : List (RowLock WorkId)) (ws : List RowWrite) : Prop :=
  ⟨workId, .update⟩ ∈ ls ∧ ∃ rows, ws = rows ++ [.createWork workId] ∧ ∀ x ∈ rows, x.On workId

section Writers

variable {workId : WorkId} {ls : List (RowLock WorkId)} {s s' : WorkRows} {ws : List RowWrite}
  {table : ReferenceTable}

theorem WriterPost.relied (h : WriterPost workId ls s ws) (hrely : WorkRely ls s s') :
    WriterPost workId ls s' ws where
  __ := h
  present := by
    obtain ⟨w, hw, hid⟩ := h.present
    obtain ⟨w', hw', hid'⟩ := hrely.present w hw
    exact ⟨w', hw', hid'.trans hid⟩

theorem works_of_on (h : ∀ x ∈ ws, x.On workId) : (workRowsSchema.view s ws).works = s.works := by
  induction ws with
  | nil => rfl
  | cons x ws ih =>
    have hx := h x List.mem_cons_self
    rw [Schema.view_cons]
    show x.created ++ (workRowsSchema.view s ws).works.map x.onWork = s.works
    rw [ih fun y hy => h y (List.mem_cons_of_mem _ hy)]
    cases x with
    | insert | setStatus => exact List.map_id _
    | _ => exact hx.elim

/-- A row is one that was there, on the same work, or a new one on this work. -/
theorem row_of_on (h : ∀ x ∈ ws, x.On workId) {r : Reference}
    (hr : r ∈ (workRowsSchema.view s ws).rows table) :
    r.workId = workId ∨ ∃ q ∈ s.rows table, q.id = r.id ∧ q.workId = r.workId := by
  induction ws generalizing r with
  | nil => exact .inr ⟨r, hr, rfl, rfl⟩
  | cons x ws ih =>
    have hx := h x List.mem_cons_self
    have hrest := fun {p : Reference} => ih (fun y hy => h y (List.mem_cons_of_mem _ hy)) (r := p)
    rw [Schema.view_cons] at hr
    rcases List.mem_append.mp hr with hnew | hold
    · cases x with
      | insert table' row =>
        simp only [RowWrite.added] at hnew
        split at hnew
        · rw [List.mem_singleton.mp hnew]
          exact .inl hx
        · cases hnew
      | setStatus => cases hnew
      | _ => exact hx.elim
    · obtain ⟨p, hp, hpr⟩ := List.mem_filterMap.mp hold
      have hsame : r.id = p.id ∧ r.workId = p.workId := by
        cases x with
        | insert =>
          cases hpr
          exact ⟨rfl, rfl⟩
        | setStatus =>
          simp only [RowWrite.onRow, Option.some.injEq] at hpr
          subst hpr
          split <;> exact ⟨rfl, rfl⟩
        | _ => exact hx.elim
      rw [hsame.1, hsame.2]
      exact hrest hp

end Writers

/-! ## What a commit does -/

namespace WorkRows.Sound

variable {s : WorkRows} (hs : s.Sound)

include hs

theorem ext {w w' : WorkPointer} (hw : w ∈ s.works) (hw' : w' ∈ s.works) (h : w.id = w'.id) :
    w = w' :=
  List.inj_on_of_nodup_map hs.ids hw hw' h

theorem work?_eq_some {id : WorkId} {w : WorkPointer} :
    s.work? id = some w ↔ w ∈ s.works ∧ w.id = id :=
  Store.Table.find?_eq_some_iff (t := ⟨s.works, hs.ids⟩)

/-- A work that is there and not merged. -/
theorem mergedInto_eq_none {id : WorkId} (hpresent : ∃ w ∈ s.works, w.id = id) :
    s.mergedInto id = none ↔ ⟨id, none⟩ ∈ s.works := by
  obtain ⟨w, hw, rfl⟩ := hpresent
  unfold WorkRows.mergedInto
  rw [hs.work?_eq_some.mpr ⟨hw, rfl⟩, Option.bind_some]
  constructor
  · intro h
    rwa [← h]
  · intro h
    rw [hs.ext hw h rfl]

theorem nothingLeft_iff :
    s.NothingLeft ↔ ∀ table, ∀ r ∈ s.rows table, ⟨r.workId, none⟩ ∈ s.works :=
  forall_congr' fun table => forall_congr' fun r => forall_congr' fun hr =>
    hs.mergedInto_eq_none (hs.present table r hr)

end WorkRows.Sound

/-- What a commit leaves: the tables are as they should be, the works that others have locked are
left alone, and if nothing was on merged works, nothing is. -/
structure WorkEffect (ls : List (RowLock WorkId)) (s s' : WorkRows) : Prop where
  sound : s'.Sound
  rely : ∀ ls', (∀ n ∈ ls', ∀ m ∈ ls, ¬ n.Conflict m) → WorkRely ls' s s'

/-- A writer's commit. -/
theorem WriterPost.effect {workId : WorkId} {ls : List (RowLock WorkId)} {s : WorkRows}
    {ws : List RowWrite} (hs : s.Sound) (h : WriterPost workId ls s ws) :
    WorkEffect ls s (workRowsSchema.view s ws) := by
  have hworks := works_of_on (s := s) h.on
  refine ⟨⟨by rw [hworks]; exact hs.ids, by rw [hworks]; exact hs.forest, ?_⟩, fun ls' hls' => ?_⟩
  · intro table r hr
    rw [hworks]
    rcases row_of_on h.on hr with hon | ⟨q, hq, -, hwork⟩
    · rw [hon]
      exact h.present
    · rw [← hwork]
      exact hs.present table q hq
  · obtain ⟨m, hm, hrow⟩ := h.locked
    refine ⟨fun n _ hn => by rwa [hworks], fun n hn hmode table r hr hwork => ?_,
      fun n _ _ w hw _ => by rwa [← hworks], fun w hw => ⟨w, by rwa [hworks], rfl⟩⟩
    rcases row_of_on h.on hr with hon | ⟨q, hq, hid, hqwork⟩
    · -- whoever has the work for `UPDATE` has it alone
      have hsame : m.row = n.row := hrow.trans (hon.symm.trans hwork)
      exact absurd (RowLock.conflict_update hmode hsame).symm (hls' n hn m hm)
    · exact ⟨q, hq, hid, hqwork.trans hwork⟩

theorem NewPost.effect {workId : WorkId} {ls : List (RowLock WorkId)} {s : WorkRows}
    {ws : List RowWrite} (hs : s.Sound) (hfree : workRowsSchema.Free ws s)
    (h : NewPost workId ls ws) : WorkEffect ls s (workRowsSchema.view s ws) := by
  obtain ⟨hlocked, rows, rfl, hon⟩ := h
  have hworks : (workRowsSchema.view s (rows ++ [.createWork workId])).works =
      ⟨workId, none⟩ :: s.works := by
    rw [Schema.view_append, works_of_on hon]
    show ⟨workId, none⟩ :: s.works.map id = _
    rw [List.map_id]
  have hrows : ∀ {table r}, r ∈ (workRowsSchema.view s (rows ++ [.createWork workId])).rows table →
      r.workId = workId ∨ ∃ q ∈ s.rows table, q.id = r.id ∧ q.workId = r.workId := by
    intro table r hr
    rw [Schema.view_append] at hr
    refine (row_of_on hon hr).imp id ?_
    rintro ⟨q, hq, hid, hwork⟩
    change q ∈ [] ++ (s.rows table).filterMap some at hq
    rw [List.nil_append, List.filterMap_some] at hq
    exact ⟨q, hq, hid, hwork⟩
  have hfresh : ∀ w ∈ s.works, w.id ≠ workId := by
    have hkey := hfree workId (by simp [Schema.keysOf, workRowsSchema, RowWrite.created])
    exact fun w hw => by simpa using (List.any_eq_false.mp hkey) w hw
  refine ⟨⟨?_, ?_, ?_⟩, fun ls' hls' => ⟨?_, ?_, ?_, ?_⟩⟩
  · rw [hworks, List.map_cons, List.nodup_cons]
    refine ⟨fun hmem => ?_, hs.ids⟩
    obtain ⟨w, hw, hid⟩ := List.mem_map.mp hmem
    exact hfresh w hw hid
  · rw [hworks]
    intro w hw t hinto
    rcases List.mem_cons.mp hw with rfl | hw
    · cases hinto
    · exact List.mem_cons_of_mem _ (hs.forest w hw t hinto)
  · rw [hworks]
    intro table r hr
    rcases hrows hr with hnew | ⟨q, hq, -, hwork⟩
    · exact ⟨_, List.mem_cons_self, hnew.symm⟩
    · obtain ⟨w, hw, hid⟩ := hs.present table q hq
      exact ⟨w, List.mem_cons_of_mem _ hw, hid.trans hwork⟩
  · rw [hworks]
    exact fun n _ hn => List.mem_cons_of_mem _ hn
  · intro n hn hmode table r hr hwork
    rcases hrows hr with hnew | ⟨q, hq, hid, hqwork⟩
    · exact absurd (RowLock.conflict_update (n := n) (m := ⟨workId, .update⟩) rfl
        (hwork.symm.trans hnew)) (hls' n hn _ hlocked)
    · exact ⟨q, hq, hid, hqwork.trans hwork⟩
  · rw [hworks]
    intro n _ _ w hw hinto
    rcases List.mem_cons.mp hw with rfl | hw
    · cases hinto
    · exact hw
  · rw [hworks]
    exact fun w hw => ⟨w, List.mem_cons_of_mem _ hw, rfl⟩

/-! ### The commit of a merge -/

section MergeCommit

variable {a b : WorkId} {ls : List (RowLock WorkId)} {s : WorkRows} {ws : List RowWrite}

theorem MergePost.merging (h : MergePost a b ls s ws) :
    ∃ moves, ∀ moved, Merging a b moved ls s moves := by
  obtain ⟨moves, _, _, hmerging, _⟩ := h
  exact ⟨moves, hmerging⟩

/-- Which works a merge points, and where to. -/
theorem MergePost.works (h : MergePost a b ls s ws) {w' : WorkPointer} :
    w' ∈ (workRowsSchema.view s ws).works ↔ ∃ w ∈ s.works, w' =
      if w.mergedIntoId = some a ∨ w.id = a then { w with mergedIntoId := some b } else w := by
  obtain ⟨moves, incoming, rfl, hmerging, hincoming⟩ := h
  rw [Schema.view_cons, Schema.view_cons]
  show w' ∈ ((workRowsSchema.view s moves).works.map (RowWrite.onWork (.repoint incoming a b))).map
    (RowWrite.onWork (.point a b)) ↔ _
  rw [works_of_moves (hmerging []).moves, List.map_map, List.mem_map]
  refine exists_congr fun w => and_congr_right fun hw => ?_
  have heq : RowWrite.onWork (.point a b) (RowWrite.onWork (.repoint incoming a b) w) =
      if w.mergedIntoId = some a ∨ w.id = a then { w with mergedIntoId := some b } else w := by
    by_cases hinto : w.mergedIntoId = some a
    · have hrepointed : RowWrite.onWork (.repoint incoming a b) w =
          { w with mergedIntoId := some b } := if_pos ⟨hincoming w hw hinto, hinto⟩
      rw [hrepointed, if_pos (.inl hinto)]
      simp only [RowWrite.onWork]
      split <;> rfl
    · have hsame : RowWrite.onWork (.repoint incoming a b) w = w := if_neg fun hin => hinto hin.2
      rw [hsame]
      exact if_congr (by simp [hinto]) rfl rfl
  rw [Function.comp_apply, heq]
  exact eq_comm

/-- The rows of a merge are those that were there, none of them on the source. -/
theorem MergePost.rows (h : MergePost a b ls s ws) {table : ReferenceTable} {r : Reference}
    (hr : r ∈ (workRowsSchema.view s ws).rows table) :
    r.workId ≠ a ∧ ∃ q ∈ s.rows table, q.id = r.id ∧ (r.workId = q.workId ∨ r.workId = b) := by
  obtain ⟨moves, incoming, rfl, hmerging, -⟩ := h
  have hr' : r ∈ (workRowsSchema.view s moves).rows table := by
    rw [Schema.view_cons, Schema.view_cons] at hr
    change r ∈ [] ++ (([] ++ ((workRowsSchema.view s moves).rows table).filterMap some)).filterMap
      some at hr
    simpa using hr
  obtain ⟨q, hq, hid, hwork, htakes⟩ := row_of_moves (hmerging []).distinct (hmerging []).moves hr'
  refine ⟨fun ha => ?_, q, hq, hid, hwork⟩
  -- on the source before: taken by one of the writes
  have hqa : q.workId = a := by
    rcases hwork with hsame | hb
    · rw [← hsame, ha]
    · exact absurd (ha.symm.trans hb) (hmerging []).distinct
  obtain ⟨x, hx, htaken⟩ := (hmerging [table]).taken table (List.mem_singleton.mpr rfl) q hq hqa
  rw [hid] at htaken
  exact htakes ha x hx htaken

theorem MergePost.effect (hs : s.Sound) (h : MergePost a b ls s ws) :
    WorkEffect ls s (workRowsSchema.view s ws) := by
  obtain ⟨moves, hmerging⟩ := h.merging
  obtain ⟨hdistinct, ha, hb, hsource, htarget, -, -⟩ := hmerging []
  have hpointed : ∀ w : WorkPointer,
      (if w.mergedIntoId = some a ∨ w.id = a then { w with mergedIntoId := some b } else w).id =
        w.id := by
    intro w
    split <;> rfl
  have hkept : ∀ id, id ≠ a → ⟨id, none⟩ ∈ s.works →
      (⟨id, none⟩ : WorkPointer) ∈ (workRowsSchema.view s ws).works := by
    intro id hid hmem
    exact (h.works).mpr ⟨_, hmem, by simp [hid]⟩
  have hpresent : ∀ w ∈ s.works, ∃ w' ∈ (workRowsSchema.view s ws).works, w'.id = w.id :=
    fun w hw => ⟨_, (h.works).mpr ⟨w, hw, rfl⟩, hpointed w⟩
  refine ⟨⟨?_, fun w' hw' t hinto => ?_, fun table r hr => ?_⟩, fun ls' hls' => ⟨?_, ?_, ?_, hpresent⟩⟩
  · obtain ⟨moves, incoming, rfl, hmerging, -⟩ := h
    have hids : ∀ x : RowWrite, ∀ l : List WorkPointer,
        (l.map x.onWork).map WorkPointer.id = l.map WorkPointer.id := by
      intro x l
      rw [List.map_map]
      exact List.map_congr_left fun w _ => x.onWork_id w
    rw [Schema.view_cons, Schema.view_cons]
    show ((((workRowsSchema.view s moves).works.map (RowWrite.onWork (.repoint incoming a b))).map
      (RowWrite.onWork (.point a b))).map WorkPointer.id).Nodup
    rw [hids, hids, works_of_moves (hmerging []).moves]
    exact hs.ids
  · obtain ⟨w, hw, rfl⟩ := (h.works).mp hw'
    split at hinto
    · cases hinto
      exact hkept b hdistinct.symm htarget
    · next hnot =>
      push Not at hnot
      refine hkept t (fun hta => hnot.1 ?_) (hs.forest w hw t hinto)
      rw [hinto, hta]
  · obtain ⟨-, q, hq, -, hwork⟩ := h.rows hr
    rcases hwork with hsame | hon
    · obtain ⟨w, hw, hid⟩ := hs.present table q hq
      rw [hsame, ← hid]
      exact hpresent w hw
    · rw [hon]
      exact hpresent _ htarget
  · intro n hn hmem
    refine hkept n.row (fun hrow => ?_) hmem
    exact hls' n hn _ ha (RowLock.conflict_update rfl hrow)
  · intro n hn hmode table r hr hwork
    obtain ⟨-, q, hq, hid, hsame | hon⟩ := h.rows hr
    · exact ⟨q, hq, hid, hsame.symm.trans hwork⟩
    · exact absurd (RowLock.conflict_update (n := n) (m := ⟨b, .update⟩) rfl
        (hwork.symm.trans hon)) (hls' n hn _ hb)
  · intro n hn hmode w' hw' hinto
    obtain ⟨w, hw, rfl⟩ := (h.works).mp hw'
    split at hinto
    · exact absurd (RowLock.conflict_update (n := n) (m := ⟨b, .update⟩) rfl
        (Option.some.inj hinto).symm) (hls' n hn _ hb)
    · next hnot => rwa [if_neg hnot]

/-- Nothing is left on the source. -/
theorem MergePost.nothingLeft (h : MergePost a b ls s ws)
    (hleft : ∀ table, ∀ r ∈ s.rows table, ⟨r.workId, none⟩ ∈ s.works) :
    ∀ table, ∀ r ∈ (workRowsSchema.view s ws).rows table,
      ⟨r.workId, none⟩ ∈ (workRowsSchema.view s ws).works := by
  intro table r hr
  obtain ⟨ha, q, hq, -, hwork⟩ := h.rows hr
  refine (h.works).mpr ⟨⟨r.workId, none⟩, ?_, by simp [ha]⟩
  rcases hwork with hsame | hon
  · rw [hsame]
    exact hleft table q hq
  · rw [hon]
    obtain ⟨moves, hmerging⟩ := h.merging
    exact (hmerging []).target

end MergeCommit

/-! ## The scripts -/

/-- The script ends as `Q` says, whatever the others do. -/
abbrev RowSafe {α : Type} (Q : α → List (RowLock WorkId) → WorkRows → List RowWrite → Prop)
    (p : RowScript α) (ls : List (RowLock WorkId)) (s : WorkRows) (ws : List RowWrite) : Prop :=
  p.Safe workRowsSchema id (fun ls _ s s' => WorkRely ls s s') (fun _ _ => True) (fun _ => True)
    (fun _ _ => True) Q ls s ws

section Scripts

variable {α : Type} {Q : α → List (RowLock WorkId) → WorkRows → List RowWrite → Prop}
  {ls : List (RowLock WorkId)} {s : WorkRows} {ws : List RowWrite} {workId : WorkId}

theorem safe_canonicalOrThrow {work : Option WorkPointer} {g : Unit → RowScript α}
    (h : ∀ id, work = some ⟨id, none⟩ → RowSafe Q (g ()) ls s ws) :
    RowSafe Q (canonicalOrThrow work >>= g) ls s ws := by
  match work with
  | none => trivial
  | some ⟨_, some _⟩ => trivial
  | some ⟨id, none⟩ => exact h id rfl

theorem mem_of_work? {id id' : WorkId} {into : Option WorkId}
    (h : s.work? id = some ⟨id', into⟩) : ⟨id, into⟩ ∈ s.works := by
  have hid : id' = id := by simpa using List.find?_some h
  rw [← hid]
  exact List.mem_of_find?_eq_some h

/-- The rows on the work are inserted under a lock on it, while it is not merged. -/
def Guarded (workId : WorkId) (ls : List (RowLock WorkId)) (s : WorkRows) (ws : List RowWrite) :
    Prop :=
  WriterPost workId ls s ws ∧ ⟨workId, none⟩ ∈ s.works

theorem Guarded.relied {s' : WorkRows} (h : Guarded workId ls s ws) (hrely : WorkRely ls s s') :
    Guarded workId ls s' ws := by
  obtain ⟨n, hn, hrow⟩ := h.1.locked
  refine ⟨h.1.relied hrely, ?_⟩
  rw [← hrow] at h ⊢
  exact hrely.unmerged n hn h.2

theorem WriterPost.write (h : WriterPost workId ls s ws) {x : RowWrite} (hx : x.On workId) :
    WriterPost workId ls s (x :: ws) where
  __ := h
  on := List.forall_mem_cons.mpr ⟨hx, h.on⟩

/-- A row is inserted while `J` is kept. -/
theorem safe_insertRow {J : WorkRows → List RowWrite → Prop} {table : ReferenceTable}
    {userId : UserId} {status : Option ReadingStatus} {now : Time} {g : Unit → RowScript α}
    (hrely : ∀ s s' ws, WorkRely ls s s' → J s ws → J s' ws)
    (hwrite : ∀ s x, x.On workId → J s ws → J s (x :: ws)) (hJ : J s ws)
    (h : ∀ s' ws', J s' ws' → RowSafe Q (g ()) ls s' ws') :
    RowSafe Q (insertRow table userId workId status now >>= g) ls s ws := by
  intro i s' hR _
  exact ⟨fun _ _ _ => trivial, fun _ => h s' _ (hwrite s' _ rfl (hrely s s' ws hR hJ))⟩

/-- The rows of a chain. -/
theorem safe_insertChain {J : WorkRows → List RowWrite → Prop}
    {P : WorkCall → List (RowLock WorkId) → WorkRows → List RowWrite → Prop} {userId : UserId}
    {translation : Bool} {now : Time} (hrely : ∀ s s' ws, WorkRely ls s s' → J s ws → J s' ws)
    (hwrite : ∀ s x ws, x.On workId → J s ws → J s (x :: ws)) (hJ : J s ws)
    (h : ∀ s' ws', J s' ws' → P (.finished (.ok ())) ls s' ws') :
    RowSafe P (insertChain userId workId translation now) ls s ws := by
  have hedition : ∀ s ws, J s ws → RowSafe P (do
      insertRow .editions userId workId none now
      return .finished (.ok ())) ls s ws := fun s ws hJ =>
    safe_insertRow hrely (fun s x => hwrite s x ws) hJ h
  unfold insertChain
  cases translation with
  | false => exact hedition s ws hJ
  | true => exact safe_insertRow hrely (fun s x => hwrite s x ws) hJ hedition

/-- What is done under the lock of a work that is not merged. -/
theorem safe_lockExisting {g : Unit → RowScript α}
    (h : ∀ s', Guarded workId [⟨workId, .update⟩] s' [] →
      RowSafe Q (g ()) [⟨workId, .update⟩] s' []) :
    RowSafe Q (lockExisting workId >>= g) [] s [] := by
  intro s' _ _ s'' _ _
  refine safe_canonicalOrThrow fun id hwork => h s'' ⟨⟨⟨_, List.mem_cons_self, rfl⟩, ?_, nofun⟩, ?_⟩
  · exact ⟨_, mem_of_work? hwork, rfl⟩
  · exact mem_of_work? hwork

theorem safe_chainScript {userId : UserId} {translation : Bool} {now : Time} :
    RowSafe (fun _ ls s ws => Guarded workId ls s ws)
      (chainScript userId workId translation now) [] s [] :=
  safe_lockExisting fun _ h => safe_insertChain (fun _ _ _ hR h => h.relied hR)
    (fun _ _ _ hx h => ⟨h.1.write hx, h.2⟩) h fun _ _ h => h

theorem safe_createEditionScript {userId : UserId} {now : Time} :
    RowSafe (fun _ ls s ws => Guarded workId ls s ws)
      (createEditionScript userId workId now) [] s [] :=
  safe_lockExisting fun _ h => safe_insertRow (fun _ _ _ hR h => h.relied hR)
    (fun _ _ hx h => ⟨h.1.write hx, h.2⟩) h fun _ _ h => h

theorem safe_newChainScript {userId : UserId} {translation : Bool} {now : Time} :
    RowSafe (fun _ ls _ ws => ∃ workId, NewPost workId ls ws)
      (newChainScript userId translation now) [] s [] := by
  intro workId s' _ _ s'' _ _
  refine ⟨fun _ _ _ => trivial, fun _ => ?_⟩
  refine safe_insertChain (J := fun _ ws => NewPost workId [⟨workId, .update⟩] ws)
    (fun _ _ _ _ h => h) ?_ ⟨List.mem_cons_self, [], rfl, nofun⟩ fun _ _ h => ⟨workId, h⟩
  rintro _ x _ hx ⟨hlocked, rows, rfl, hrows⟩
  exact ⟨hlocked, x :: rows, rfl, List.forall_mem_cons.mpr ⟨hx, hrows⟩⟩

theorem safe_setStatusScript {userId : UserId} {status : ReadingStatus} {now : Time} :
    RowSafe (fun _ ls s ws => Guarded workId ls s ws)
      (setStatusScript userId workId status now) [] s [] := by
  refine Script.Safe.acquire fun s₁ _ _ => Script.Safe.select fun s₂ _ _ => ?_
  refine safe_canonicalOrThrow fun id hwork => ?_
  have hguarded : Guarded workId [⟨workId, .share⟩] s₂ [] :=
    ⟨⟨⟨_, List.mem_cons_self, rfl⟩, ⟨_, mem_of_work? hwork, rfl⟩, nofun⟩, mem_of_work? hwork⟩
  refine Script.Safe.select fun s₃ hR _ => ?_
  have hread := hguarded.relied hR
  dsimp only
  split
  · next row _ =>
    split
    · refine Script.Safe.insert fun s₄ hR' => ?_
      have h := hread.relied hR'
      exact ⟨h.1.write trivial, h.2⟩
    · exact hread
  · exact safe_insertRow (fun _ _ _ hR h => h.relied hR)
      (fun _ _ hx h => ⟨h.1.write hx, h.2⟩) hread fun _ _ h => h

theorem safe_assertCanonicalScript {next : WorkCall} :
    RowSafe (fun _ _ _ ws => ws = []) (assertCanonicalScript workId next) [] s [] :=
  fun _ _ _ => safe_canonicalOrThrow fun _ _ => rfl

theorem safe_insertScript {table : ReferenceTable} {userId : UserId} {now : Time} :
    RowSafe (fun _ ls s ws => WriterPost workId ls s ws)
      (insertScript table userId workId now) [] s [] := by
  refine Script.Safe.acquire fun s₁ _ _ => Script.Safe.select fun s₂ _ _ => ?_
  dsimp only
  split
  · trivial
  · next hwork =>
    obtain ⟨⟨id, into⟩, hwork⟩ := Option.ne_none_iff_exists'.mp
      (fun hnone => hwork (Option.isNone_iff_eq_none.mpr hnone))
    have hpost : WriterPost workId [⟨workId, .keyShare⟩] s₂ [] :=
      ⟨⟨_, List.mem_cons_self, rfl⟩, ⟨_, mem_of_work? hwork, rfl⟩, nofun⟩
    refine Script.Safe.select fun s₃ hR _ => ?_
    have hread := hpost.relied hR
    split
    · exact safe_insertRow (fun _ _ _ hR h => h.relied hR) (fun _ _ hx h => h.write hx) hread
        fun _ _ h => h
    · exact hread

/-! ### The script of a merge -/

theorem WorkRely.weaken {ls' : List (RowLock WorkId)} {s' : WorkRows} (h : WorkRely ls' s s')
    (hls : ∀ n ∈ ls, n ∈ ls') : WorkRely ls s s' where
  unmerged n hn := h.unmerged n (hls n hn)
  rows n hn := h.rows n (hls n hn)
  incoming n hn := h.incoming n (hls n hn)
  present := h.present

theorem safe_lockAll {mode : LockMode} {ids : List WorkId} {g : PUnit → RowScript α}
    (h : ∀ ls' s', (∀ n ∈ ls, n ∈ ls') → (∀ id ∈ ids, ⟨id, mode⟩ ∈ ls') → WorkRely ls s s' →
      RowSafe Q (g ()) ls' s' ws) : RowSafe Q (lockAll mode ids >>= g) ls s ws := by
  induction ids generalizing ls s with
  | nil => exact h ls s (fun _ hn => hn) nofun (.refl ls s)
  | cons id ids ih =>
    intro s₁ hR _
    refine ih fun ls' s' hls hids hR' => h ls' s' ?_ ?_ ?_
    · exact fun n hn => hls n (List.mem_cons_of_mem _ hn)
    · exact List.forall_mem_cons.mpr ⟨hls _ List.mem_cons_self, hids⟩
    · exact hR.trans (hR'.weaken fun n hn => List.mem_cons_of_mem _ hn)

variable {a b : WorkId} {moved : List ReferenceTable}

theorem mergeable_eq_ok {source target : Option WorkPointer}
    (h : mergeable source target = .ok ()) :
    (∃ id, source = some ⟨id, none⟩) ∧ ∃ id, target = some ⟨id, none⟩ := by
  match source, target with
  | some ⟨id, none⟩, some ⟨id', none⟩ => exact ⟨⟨id, rfl⟩, id', rfl⟩
  | some ⟨_, none⟩, some ⟨_, some _⟩ => cases h
  | some ⟨_, some _⟩, some _ => cases h
  | none, none => cases h
  | none, some _ => cases h
  | some _, none => cases h

/-- Rows are found, and then taken or archived. -/
theorem safe_losing {f : WorkRows → List Nat} {x : List Nat → RowWrite}
    {g : Unit → RowScript α} (hx : ∀ ids, (x ids).Moves a b) (hm : Merging a b moved ls s ws)
    (h : ∀ s' ws', Merging a b moved ls s' ws' → RowSafe Q (g ()) ls s' ws') :
    RowSafe Q (Script.select f >>= fun ids => Script.insert (x ids) >>= g) ls s ws := by
  refine Script.Safe.select fun s₁ hR _ => Script.Safe.insert fun s₂ hR' => ?_
  exact h s₂ _ (((hm.relied hR).write (hx _)).relied hR')

theorem safe_moveTable {table : ReferenceTable} {g : Unit → RowScript α}
    (hm : Merging a b moved ls s ws)
    (h : ∀ s' ws', Merging a b (table :: moved) ls s' ws' → RowSafe Q (g ()) ls s' ws') :
    RowSafe Q (moveTable a b table >>= g) ls s ws := by
  intro s₁ hR _ s₂ hR' _
  exact ⟨fun _ _ _ => trivial, fun _ => h s₂ _ (((hm.relied hR).move table).relied hR')⟩

/-- The five tables are all there are. -/
theorem Merging.all (h : Merging a b [.statuses, .wishlist, .reviews, .editions, .translations] ls
    s ws) (moved : List ReferenceTable) : Merging a b moved ls s ws where
  __ := h
  taken table _ := h.taken table (by cases table <;> decide)

/-- The last statements point the works. -/
theorem safe_pointWorks
    (hm : Merging a b [.statuses, .wishlist, .reviews, .editions, .translations] ls s ws) :
    RowSafe (fun _ ls s ws => MergePost a b ls s ws) (do
      let incoming ← .select fun s => s.incoming a
      lockAll .noKeyUpdate incoming
      .insert (.repoint incoming a b)
      .insert (.point a b)
      return WorkCall.finished (.ok ())) ls s ws := by
  refine Script.Safe.select fun s₁ hR _ => safe_lockAll fun ls' s₂ hls _ hR₂ => ?_
  refine Script.Safe.insert fun s₃ hR₃ => Script.Safe.insert fun s₄ hR₄ => ?_
  have hrely : WorkRely ls s₁ s₄ := (hR₂.trans (hR₃.weaken hls)).trans (hR₄.weaken hls)
  have hm₁ := hm.relied hR
  refine ⟨ws, _, rfl, fun moved => ((hm₁.relied hrely).lock hls).all moved, fun w hw hinto => ?_⟩
  have hw₁ := hrely.incoming _ hm.source_locked rfl w hw hinto
  have hworks : (workRowsSchema.view s₁ ws).works = s₁.works := works_of_moves hm.moves
  refine List.mem_map.mpr ⟨w, List.mem_filter.mpr ⟨?_, decide_eq_true hinto⟩, rfl⟩
  exact hworks ▸ hw₁

theorem safe_mergeScript (hab : a ≠ b) :
    RowSafe (fun _ ls s ws => MergePost a b ls s ws) (mergeScript a b) [] s [] := by
  intro s₀ _ _
  refine safe_lockAll fun ls s₁ _ hlocked _ => ?_
  have ha : ⟨a, .update⟩ ∈ ls := hlocked a (by simp [List.mem_insertionSort])
  have hb : ⟨b, .update⟩ ∈ ls := hlocked b (by simp [List.mem_insertionSort])
  refine Script.Safe.select fun s₂ _ _ => Script.Safe.select fun s₃ hR _ => ?_
  cases hmergeable : mergeable ((workRowsSchema.view (id s₂) []).work? a)
      ((workRowsSchema.view (id s₃) []).work? b) with
  | error e => trivial
  | ok u =>
    obtain ⟨⟨_, hsource⟩, _, htarget⟩ := mergeable_eq_ok hmergeable
    have hm : Merging a b [] ls s₃ [] :=
      ⟨hab, ha, hb, hR.unmerged _ ha (mem_of_work? hsource), mem_of_work? htarget, nofun, nofun⟩
    refine safe_losing (x := .archive) (fun _ => trivial) hm fun s₄ ws₄ hm => ?_
    refine safe_losing (x := .delete .wishlist) (fun _ => trivial) hm fun s₅ ws₅ hm => ?_
    refine safe_losing (x := .delete .statuses) (fun _ => trivial) hm fun s₆ ws₆ hm => ?_
    refine safe_moveTable hm fun _ _ hm => safe_moveTable hm fun _ _ hm => ?_
    refine safe_moveTable hm fun _ _ hm => safe_moveTable hm fun _ _ hm => ?_
    exact safe_moveTable hm fun _ _ hm => safe_pointWorks hm

end Scripts

/-! ## Every run -/

/-- What a call has done when it commits. -/
def WorkPost (ls : List (RowLock WorkId)) (s : WorkRows) (ws : List RowWrite) : WorkCall → Prop
  | .merge source target => MergePost source target ls s ws
  | .createTranslation _ _ _ | .addToWishlist _ _ _ => ws = []
  | .createEdition _ workId _ | .chain _ workId _ _ | .setStatus _ workId _ _ =>
    Guarded workId ls s ws
  | .newChain _ _ _ => ∃ workId, NewPost workId ls ws
  | .inserting _ _ workId _ => WriterPost workId ls s ws
  | .finished _ => False

def workContract : Contract WorkRows RowWrite (RowLock WorkId) WorkRowsError WorkCall where
  inv := WorkRows.Sound
  stage _ _ := True
  rely _ ls _ s s' := WorkRely ls s s'
  error _ _ _ := True
  post _ call _ ls s ws := WorkPost ls s ws call

theorem WorkPost.relied {ls : List (RowLock WorkId)} {s s' : WorkRows} {ws : List RowWrite}
    {call : WorkCall} (hrely : WorkRely ls s s') (h : WorkPost ls s ws call) :
    WorkPost ls s' ws call := by
  cases call with
  | merge => exact MergePost.relied h hrely
  | createEdition | chain | setStatus => exact Guarded.relied h hrely
  | inserting => exact WriterPost.relied h hrely
  | createTranslation | addToWishlist | newChain | finished => exact h

theorem WorkPost.effect {ls : List (RowLock WorkId)} {s : WorkRows} {ws : List RowWrite}
    {call : WorkCall} (hs : s.Sound) (hfree : workRowsSchema.Free ws s)
    (h : WorkPost ls s ws call) : WorkEffect ls s (workRowsSchema.view s ws) := by
  cases call with
  | merge => exact MergePost.effect hs h
  | createEdition | chain | setStatus => exact WriterPost.effect hs h.1
  | inserting => exact WriterPost.effect hs h
  | newChain =>
    obtain ⟨workId, h⟩ := h
    exact h.effect hs hfree
  | createTranslation | addToWishlist =>
    rw [show ws = [] from h]
    exact ⟨hs, fun ls' _ => .refl ls' s⟩
  | finished => exact h.elim

theorem safe_script {call : WorkCall} {p : RowScript WorkCall} (hp : call.script = some p)
    (s : WorkRows) : RowSafe (fun _ ls s ws => WorkPost ls s ws call) p [] s [] := by
  cases call with
  | merge a b =>
    cases hp
    split
    · trivial
    · next hab => exact safe_mergeScript hab
  | createTranslation | addToWishlist =>
    cases hp
    exact safe_assertCanonicalScript
  | createEdition =>
    cases hp
    exact safe_createEditionScript
  | chain =>
    cases hp
    exact safe_chainScript
  | newChain =>
    cases hp
    exact safe_newChainScript
  | setStatus =>
    cases hp
    exact safe_setStatusScript
  | inserting =>
    cases hp
    exact safe_insertScript
  | finished => cases hp

theorem workWriters_proved (start : WorkRows → Prop) :
    workContract.Proved (workWriters start) where
  init _ h := h.1
  posted _ _ _ := trivial
  refl _ _ _ _ _ := .refl _ _
  chains _ _ _ _ _ _ h h' := h.trans h'
  script _ _ _ s _ _ hp := safe_script hp s
  stable _ _ _ _ _ _ _ hrely _ hpost := hpost.relied hrely
  next _ _ _ _ _ _ _ _ := trivial
  failed _ _ _ _ _ := trivial
  refused _ _ _ _ := trivial
  commit _ _ _ _ _ _ hs hfree hpost := by
    have heffect := WorkPost.effect hs hfree hpost
    exact ⟨heffect.sound, fun _ ls' _ _ hls' => heffect.rely ls' hls'⟩
  elsewhere _ _ _ h := h.elim

section Runs

variable {start : WorkRows → Prop} {w w' : WorkServing}

/-- Merged works point to works that are not merged. -/
structure MergeForest (s : WorkRows) : Prop where
  target : ∀ id t, s.mergedInto id = some t → s.work? t = some ⟨t, none⟩
  one_hop : ∀ id c, s.resolve id = some c → s.work? c = some ⟨c, none⟩
  no_chain : ∀ a b c, s.mergedInto a = some b → s.mergedInto b ≠ some c
  no_cycle : ∀ a, ¬ Relation.TransGen (fun a b => s.mergedInto a = some b) a a

theorem WorkRows.Sound.mergeForest {s : WorkRows} (hs : s.Sound) : MergeForest s := by
  have htarget : ∀ id t, s.mergedInto id = some t → s.work? t = some ⟨t, none⟩ := by
    intro id t h
    obtain ⟨w, hw, hinto⟩ := Option.bind_eq_some_iff.mp h
    exact hs.work?_eq_some.mpr ⟨hs.forest w (hs.work?_eq_some.mp hw).1 t hinto, rfl⟩
  have hchain : ∀ a b c, s.mergedInto a = some b → s.mergedInto b ≠ some c := by
    intro a b c hab hbc
    rw [WorkRows.mergedInto, htarget a b hab] at hbc
    cases hbc
  refine ⟨htarget, fun id c h => ?_, hchain, fun a h => ?_⟩
  · obtain ⟨w, hw, rfl⟩ := Option.map_eq_some_iff.mp h
    cases hinto : w.mergedIntoId with
    | some t => exact htarget id t (by rw [WorkRows.mergedInto, hw, Option.bind_some, hinto])
    | none =>
      have hid := (hs.work?_eq_some.mp hw).2
      rw [Option.getD_none, hid, hw, ← hid, ← hinto]
  · -- the work that the last step of a way leads to is merged, if the way goes on
    have hends : ∀ b c, Relation.TransGen (fun a b => s.mergedInto a = some b) b c →
        s.mergedInto c = none := by
      intro b c hway
      cases hway with
      | single hstep => exact Option.eq_none_iff_forall_ne_some.mpr fun d => hchain _ _ d hstep
      | tail _ hstep => exact Option.eq_none_iff_forall_ne_some.mpr fun d => hchain _ _ d hstep
    obtain ⟨b, hstep, -⟩ := Relation.TransGen.head'_iff.mp h
    rw [hends a a h] at hstep
    cases hstep

/-- **Merges never make chains**: whatever merges run beside each other, and beside whoever else
writes rows on works. -/
theorem merge_forest (hw : (workWriters start).machine.Reachable w) : MergeForest w.db :=
  ((workWriters_proved start).kept hw).inv.mergeForest

/-- Where a step leaves the tables. -/
theorem workWriters_step {op : ServiceOp WorkRows WorkId WorkCall}
    (h : (workWriters start).machine.step w op w') : w'.db = w.db ∨
      ∃ r call next ls ws, op = .commit r ∧ w.calls r = some (.inside call ⟨.done next, ls, ws⟩) ∧
        w'.db = workRowsSchema.view w.db ws := by
  cases h with
  | commit hr => exact .inr ⟨_, _, _, _, _, rfl, hr, rfl⟩
  | elsewhere hdb => exact hdb.elim
  | _ => exact .inl rfl

/-- The `INSERT` of `createTranslation` and of `WishlistService.add`, which locks the work only
when the row is in, is committed while the work is not merged. -/
def InsertsOnCanonical (w : WorkServing) (op : ServiceOp WorkRows WorkId WorkCall)
    (_ : WorkServing) : Prop :=
  ∀ r table userId workId now tx, op = .commit r →
    w.calls r = some (.inside (.inserting table userId workId now) tx) →
    w.db.mergedInto workId = none

/-- Rows that are written on a work that is not merged. -/
theorem WriterPost.nothingLeft {workId : WorkId} {ls : List (RowLock WorkId)} {s : WorkRows}
    {ws : List RowWrite} (h : WriterPost workId ls s ws) (hcanonical : ⟨workId, none⟩ ∈ s.works)
    (hleft : ∀ table, ∀ r ∈ s.rows table, ⟨r.workId, none⟩ ∈ s.works) :
    ∀ table, ∀ r ∈ (workRowsSchema.view s ws).rows table,
      ⟨r.workId, none⟩ ∈ (workRowsSchema.view s ws).works := by
  intro table r hr
  rw [works_of_on h.on]
  rcases row_of_on h.on hr with hon | ⟨q, hq, -, hwork⟩
  · rwa [hon]
  · rw [← hwork]
    exact hleft table q hq

theorem NewPost.nothingLeft {workId : WorkId} {ls : List (RowLock WorkId)} {s : WorkRows}
    {ws : List RowWrite} (h : NewPost workId ls ws)
    (hleft : ∀ table, ∀ r ∈ s.rows table, ⟨r.workId, none⟩ ∈ s.works) :
    ∀ table, ∀ r ∈ (workRowsSchema.view s ws).rows table,
      ⟨r.workId, none⟩ ∈ (workRowsSchema.view s ws).works := by
  obtain ⟨-, rows, rfl, hon⟩ := h
  intro table r hr
  rw [Schema.view_append] at hr ⊢
  rw [works_of_on hon]
  show (⟨r.workId, none⟩ : WorkPointer) ∈ ⟨workId, none⟩ :: s.works.map id
  rw [List.map_id]
  rcases row_of_on hon hr with hnew | ⟨q, hq, -, hwork⟩
  · rw [hnew]
    exact List.mem_cons_self
  · change q ∈ [] ++ (s.rows table).filterMap some at hq
    rw [List.nil_append, List.filterMap_some] at hq
    rw [← hwork]
    exact List.mem_cons_of_mem _ (hleft table q hq)

/-- **Nothing is left on a merged work**, in a run where those two `INSERT`s find their work
unmerged. -/
theorem nothing_left (hw : ((workWriters WorkRows.NothingLeft).machine.restrict
    InsertsOnCanonical).Reachable w) : w.db.NothingLeft := by
  refine hw.invariant (I := fun w => w.db.NothingLeft)
    (fun w (hi : (workWriters _).Init w) => hi.db.2) fun w op w' hw hleft h => ?_
  have hkept := (workWriters_proved _).kept hw.of_restrict
  have hkept' := (workWriters_proved _).kept (hw.of_restrict.next h.1)
  rw [hkept'.inv.nothingLeft_iff]
  rw [hkept.inv.nothingLeft_iff] at hleft
  rcases workWriters_step h.1 with hsame | ⟨r, call, next, ls, ws, rfl, hr, hdb⟩
  · rwa [hsame]
  rw [hdb]
  have hpost : WorkPost ls w.db ws call := (hkept.post hr).2
  cases call with
  | merge => exact MergePost.nothingLeft hpost hleft
  | createEdition | chain | setStatus => exact WriterPost.nothingLeft hpost.1 hpost.2 hleft
  | newChain =>
    obtain ⟨workId, hpost⟩ := hpost
    exact hpost.nothingLeft hleft
  | inserting table userId workId now =>
    have hcanonical := h.2 r table userId workId now _ rfl hr
    rw [hkept.inv.mergedInto_eq_none (WriterPost.present hpost)] at hcanonical
    exact WriterPost.nothingLeft hpost hcanonical hleft
  | createTranslation | addToWishlist =>
    rw [show ws = [] from hpost]
    exact hleft
  | finished => exact hpost.elim

/-- Every call that was started has ended. -/
def AllFinished (w : WorkServing) : Prop :=
  ∀ r a, w.calls r = some a → a = .lost ∨ ∃ call, a = .between call ∧ call.isFinished = true

end Runs

/-! ### A translation of a work that is merged meanwhile -/

/-- A book that was entered three times. -/
def threeWorks : WorkRows where
  works := [⟨1, none⟩, ⟨2, none⟩, ⟨3, none⟩]
  rows
    | .editions => [⟨11, 5, 1, 0, none, false⟩, ⟨12, 5, 2, 0, none, false⟩]
    | _ => []

theorem threeWorks_sound : threeWorks.Sound := by
  refine ⟨by decide, by decide, fun table => ?_⟩
  cases table <;> decide

theorem threeWorks_nothingLeft : threeWorks.NothingLeft := by
  intro table
  cases table <;> decide

/-- The first work gets a translation; the others merge the first into the second, and the second
into the third. -/
def translateAndMerge : Nat → WorkCall
  | 0 => .createTranslation 5 1 100
  | 1 => .merge 1 2
  | _ => .merge 2 3

/-- The calls one after the other, from `threeWorks`. -/
def serveWorks (ops : List (Nat × List Nat)) : Option (WorkRows × (Nat → WorkCall)) :=
  (workWriters WorkRows.NothingLeft).serve (fun _ => ()) ops (threeWorks, translateAndMerge)

theorem serveWorks_served {ops : List (Nat × List Nat)} {y : WorkRows × (Nat → WorkCall)}
    (h : serveWorks ops = some y) :
    ∃ w, (workWriters WorkRows.NothingLeft).Served y w ∧
      ∀ q, (∀ op ∈ ops, op.1 ≠ q) → w.calls q = none := by
  have hposts : ∀ r, (workWriters WorkRows.NothingLeft).posts r (translateAndMerge r) := by
    intro r
    match r with
    | 0 | 1 | _ + 2 => rfl
  have hinit : (workWriters WorkRows.NothingLeft).init threeWorks :=
    ⟨threeWorks_sound, threeWorks_nothingLeft⟩
  exact (Service.Served.start hinit hposts).serve_others (fun _ => trivial) h

/-- The two merges, and where they leave the first work. -/
theorem merge_forest_threeWorks : ∃ w : WorkServing, w.db.mergedInto 1 = some 3 ∧
    w.db.mergedInto 2 = some 3 ∧ MergeForest w.db := by
  have hrun : (serveWorks [(1, []), (2, [])]).any (fun y =>
      decide (y.1.mergedInto 1 = some 3 ∧ y.1.mergedInto 2 = some 3)) = true := by decide +kernel
  obtain ⟨y, hy, hinto⟩ := (Option.any_eq_true _ _).mp hrun
  obtain ⟨w, hw, -⟩ := serveWorks_served hy
  have hinto := of_decide_eq_true hinto
  rw [← hw.db] at hinto
  exact ⟨w, hinto.1, hinto.2, merge_forest hw.reachable⟩

/-- The merge commits between the check of `createTranslation` and its `INSERT`: everything has
ended, and the translation is left on the merged work. -/
theorem nothing_left_refuted : ¬ ∀ w : WorkServing,
    (workWriters WorkRows.NothingLeft).machine.Reachable w → AllFinished w →
      w.db.NothingLeft := by
  intro hclaim
  have hrun : (serveWorks [(0, []), (1, []), (0, [77])]).any (fun y => decide
      ((∃ r ∈ y.1.rows .translations, y.1.mergedInto r.workId ≠ none) ∧
        (y.2 0).isFinished = true ∧ (y.2 1).isFinished = true)) = true := by decide +kernel
  obtain ⟨y, hy, hdone⟩ := (Option.any_eq_true _ _).mp hrun
  obtain ⟨⟨r, hr, hmerged⟩, h0, h1⟩ := of_decide_eq_true hdone
  obtain ⟨w, hw, hothers⟩ := serveWorks_served hy
  have hfinished : AllFinished w := by
    intro q a hq
    by_cases hop : q = 0 ∨ q = 1
    · have hdone : (y.2 q).isFinished = true := by
        rcases hop with rfl | rfl <;> assumption
      rcases hw.calls q with ⟨-, hposts⟩ | hsome
      · change (y.2 q).isRequest = true at hposts
        cases hcall : y.2 q with
        | finished =>
          rw [hcall] at hposts
          cases hposts
        | _ =>
          rw [hcall] at hdone
          cases hdone
      · rw [hsome] at hq
        cases hq
        exact .inr ⟨_, rfl, hdone⟩
    · push Not at hop
      have hnone := hothers q (by simp [Ne.symm hop.1, Ne.symm hop.2])
      rw [hnone] at hq
      cases hq
  have hleft := hclaim w hw.reachable hfinished .translations r (hw.db ▸ hr)
  rw [hw.db] at hleft
  exact hmerged hleft

/-- One step that commits nothing. -/
theorem restrict_next {w w' : WorkServing} {op : ServiceOp WorkRows WorkId WorkCall}
    (hw : ((workWriters WorkRows.NothingLeft).machine.restrict InsertsOnCanonical).Reachable w)
    (h : (workWriters WorkRows.NothingLeft).Step w op w') (hop : ∀ r, op ≠ .commit r) :
    ((workWriters WorkRows.NothingLeft).machine.restrict InsertsOnCanonical).Reachable w' :=
  hw.next ⟨h, fun r _ _ _ _ _ hcommit => absurd hcommit (hop r)⟩

/-- With no merge between, the translation is of a work that is not merged. -/
theorem nothing_left_threeWorks : ∃ w : WorkServing, w.db.rows .translations ≠ [] ∧
    w.db.NothingLeft := by
  have hstart : ((workWriters WorkRows.NothingLeft).machine.restrict InsertsOnCanonical).Reachable
      ⟨threeWorks, fun _ => none, []⟩ :=
    .start ⟨⟨threeWorks_sound, threeWorks_nothingLeft⟩, fun _ => rfl, rfl⟩
  -- the check
  have hposted := restrict_next hstart (@Service.Step.post _ _ _ _ _ _ _ _ _ _ _ 0
    (WorkCall.createTranslation 5 1 100) rfl rfl) (by rintro _ ⟨⟩)
  have hbegun := restrict_next hposted (@Service.Step.begin _ _ _ _ _ _ _ _ _ _ _ 0 _ _ rfl rfl)
    (by rintro _ ⟨⟩)
  have hchecked := restrict_next hbegun (@Service.Step.statement _ _ _ _ _ _ _ _ _ _ _ 0 _ _ _ rfl
    .query) (by rintro _ ⟨⟩)
  have hpassed := hchecked.next ⟨@Service.Step.commit _ _ _ _ _ _ _ _ _ _ _ 0 _ _ _ _ rfl,
    fun _ _ _ _ _ _ hop hr => by
      cases hop
      cases Option.some.inj hr⟩
  -- the `INSERT`
  have hagain := restrict_next hpassed (@Service.Step.begin _ _ _ _ _ _ _ _ _ _ _ 0 _ _ rfl rfl)
    (by rintro _ ⟨⟩)
  have hlocked := restrict_next hagain (@Service.Step.statement _ _ _ _ _ _ _ _ _ _ _ 0 _ _ _ rfl
    (.lock (by
      rintro ⟨q, a, m, hq, hcall, -⟩
      simp [Serving.move, Serving.afterCommit, Function.update, hq] at hcall))) (by rintro _ ⟨⟩)
  have hfound := restrict_next hlocked (@Service.Step.statement _ _ _ _ _ _ _ _ _ _ _ 0 _ _ _ rfl
    .query) (by rintro _ ⟨⟩)
  have habsent := restrict_next hfound (@Service.Step.statement _ _ _ _ _ _ _ _ _ _ _ 0 _ _ _ rfl
    .query) (by rintro _ ⟨⟩)
  have hdrawn := restrict_next habsent (@Service.Step.statement _ _ _ _ _ _ _ _ _ _ _ 0 _ _ _ rfl
    (.newId (i := 77))) (by rintro _ ⟨⟩)
  have hinserted := restrict_next hdrawn (@Service.Step.statement _ _ _ _ _ _ _ _ _ _ _ 0 _ _ _ rfl
    (.write (by rintro _ ⟨⟩))) (by rintro _ ⟨⟩)
  have hcommitted := hinserted.next ⟨@Service.Step.commit _ _ _ _ _ _ _ _ _ _ _ 0 _ _ _ _ rfl,
    fun _ _ _ _ _ _ hop hr => by
      cases hop
      cases Option.some.inj hr
      decide⟩
  exact ⟨_, by decide, nothing_left hcommitted⟩

end Bookswap
