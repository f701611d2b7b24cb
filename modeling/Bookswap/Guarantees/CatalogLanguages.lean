import Bookswap.Catalog.CatalogRuns

/-!
# What every state of the catalog is like

- `catalog_languages`: the text of every edition agrees with its work and its translation, whatever
  operations have run, and a refused operation leaves the tables alone.
- `author_lists`: every author list has each link once, without gaps, and a merge appends to the
  target's list what it lacked.
-/

namespace Bookswap

variable {env : CatalogEnv} {s s' : CatalogStore}

/-! ## Languages -/

/-- The operation leaves works, translations and editions as they are. -/
def LeavesTables (s s' : CatalogStore) : Prop :=
  s'.db.works = s.db.works ∧ s'.db.translations = s.db.translations ∧
    s'.db.editions = s.db.editions

/-- **I1 to I3 in every reachable state**, and a refused operation changes nothing. -/
theorem catalog_languages (h : (catalogRuns env).Reachable s) :
    (∀ e ∈ s.db.editions, EditionText s.db e) ∧
      ∀ op s', CatalogStep env s op s' → op.run env s = none → LeavesTables s s' := by
  refine ⟨(coherent_of_reachable h).texts, fun op s' hstep hrefused => ?_⟩
  cases hstep with
  | committed _ hrun =>
    rw [hrefused] at hrun
    cases hrun
  | refused _ => exact ⟨rfl, rfl, rfl⟩

/-! ### One work with an edition, and another -/

def silentEnv : CatalogEnv where
  quickAdd := ⟨fun _ => 0, id, fun _ => ""⟩
  «import» := ⟨fun _ => true, id, fun _ _ => false, fun _ _ => 0, fun _ _ => "", fun _ => ""⟩
  provider := ⟨fun _ => .error .timedOut, fun _ => .timeout, fun _ => .timeout⟩
  outside := ⟨0, fun _ => none, fun _ => none⟩

def emptyCatalogStore : CatalogStore :=
  ⟨⟨[], [], [], [], [], [], [], [], [], []⟩, fun _ => 0, fun _ => 0, fun _ => 0, [], [], []⟩

/-- A work in Ukrainian by the named authors. -/
def ukrainianWork (title : String) (names : List String) : NewWork :=
  ⟨title, none, none, some (some "uk"), some (names.map fun name => ⟨.name name, none, none⟩)⟩

/-- The operations, one after the other. -/
def runOps (ops : List CatalogOp) (s : CatalogStore) : Option CatalogStore :=
  ops.foldlM (fun s op => op.run silentEnv s) s

theorem reachable_runOps {ops : List CatalogOp} (hfresh : ∀ op ∈ ops, ∀ s, op.Fresh s)
    (hs : (catalogRuns silentEnv).Reachable s) (h : runOps ops s = some s') :
    (catalogRuns silentEnv).Reachable s' := by
  induction ops generalizing s with
  | nil =>
    cases h
    exact hs
  | cons op ops ih =>
    obtain ⟨t, hop, h⟩ := Option.bind_eq_some_iff.mp h
    have hstep : CatalogStep silentEnv s op t :=
      .committed (hfresh op List.mem_cons_self s) hop
    exact ih (fun o ho => hfresh o (List.mem_cons_of_mem _ ho)) (hs.next hstep) h

/-- Two works, one with an edition, and the first merged into the second. -/
def kobzarOps : List CatalogOp :=
  [.createWork 1 (ukrainianWork "Кобзар" ["Шевченко"]) [1, 11],
    .createWork 1 (ukrainianWork "Кобзарь" ["Шевченко Т. Г."]) [2, 12],
    .createEdition 1 1 ⟨none, none, none, none, none, none, none⟩ 21, .merge 1 2 0]

theorem reachable_kobzarOps (h : runOps kobzarOps emptyCatalogStore = some s) :
    (catalogRuns silentEnv).Reachable s := by
  refine reachable_runOps (fun op hop s => ?_) (.start ⟨rfl, rfl, rfl, rfl⟩) h
  simp only [kobzarOps, List.mem_cons, List.not_mem_nil, or_false] at hop
  rcases hop with rfl | rfl | rfl | rfl <;> trivial

/-- The edition is an original of the second work now, in its language. -/
theorem catalog_languages_kobzar : ∃ s : CatalogStore, s.db.editions.map Edition.lang = [some "uk"] ∧
    s.db.editions.map Edition.workId = [2] ∧ (∀ e ∈ s.db.editions, EditionText s.db e) ∧
      ∀ op s', CatalogStep silentEnv s op s' → op.run silentEnv s = none → LeavesTables s s' := by
  have hruns : ((runOps kobzarOps emptyCatalogStore).any fun s =>
      s.db.editions.map Edition.lang = [some "uk"] ∧ s.db.editions.map Edition.workId = [2]) =
        true := by decide +kernel
  obtain ⟨s, hs, hlangs⟩ := (Option.any_eq_true _ _).mp hruns
  obtain ⟨hlang, hwork⟩ := of_decide_eq_true hlangs
  exact ⟨s, hlang, hwork, catalog_languages (reachable_kobzarOps hs)⟩

/-! ## Author lists -/

/-- The list has each link once, at the positions from 0 on in order. -/
structure AuthorList (links : List WorkAuthor) : Prop where
  distinct : (links.map fun l => (l.authorId, l.role)).Nodup
  positions : links.map WorkAuthor.position = List.range links.length

/-- In a list sorted by position, the positions are those of the links in order. -/
theorem authorList_of_shape {db : CatalogDb} {id : WorkId} (h : LinkShape (db.linksOf id)) :
    AuthorList (db.authorLinksOf id) := by
  have hperm := authorLinksOf_perm db id
  refine ⟨((hperm.map linkKey).nodup_iff).mpr h.keys, ?_⟩
  have hsorted : ((db.authorLinksOf id).map WorkAuthor.position).Pairwise (· ≤ ·) := by
    rw [List.pairwise_map]
    refine (List.pairwise_mergeSort (fun a b c hab hbc => ?_) (fun a b => ?_) _).imp ?_
    · exact decide_eq_true ((of_decide_eq_true hab).trans (of_decide_eq_true hbc))
    · have htotal := Nat.le_total a.position b.position
      simpa using htotal
    · exact fun h => of_decide_eq_true h
  refine List.Perm.eq_of_pairwise (fun a b _ _ => Nat.le_antisymm) hsorted List.pairwise_le_range ?_
  rw [hperm.length_eq]
  exact (hperm.map _).trans h.positions

/-- Two lists of the same links at the same distinct positions are one. -/
theorem eq_of_positions {l m : List WorkAuthor} (hperm : l.Perm m)
    (hsame : l.map WorkAuthor.position = m.map WorkAuthor.position)
    (hdistinct : (m.map WorkAuthor.position).Nodup) : l = m := by
  refine List.ext_getElem hperm.length_eq fun i hl hm => ?_
  have hposition : l[i].position = m[i].position := by
    have hget := congrArg (fun p : List Nat => p[i]?) hsame
    simpa [hl, hm] using hget
  exact List.inj_on_of_nodup_map hdistinct (hperm.mem_iff.mp (List.getElem_mem hl))
    (List.getElem_mem hm) hposition

/-- **The target's list after a merge**: its own links, then those of the source that it lacked,
both in their order. -/
theorem authorLinksOf_merged {a b : WorkId} {now : Time} (hs : s.db.Coherent)
    (h : Merged s a b now s') :
    s'.db.authorLinksOf b = s.db.authorLinksOf b ++ appendedLinks s.db a b := by
  have hperm : (s'.db.authorLinksOf b).Perm (s.db.authorLinksOf b ++ appendedLinks s.db a b) := by
    refine (authorLinksOf_perm s'.db b).trans ?_
    rw [linksOf_merged h, if_pos rfl]
    exact List.perm_append_comm.trans ((authorLinksOf_perm s.db b).symm.append_right _)
  have hlist := authorList_of_shape (linkShape_merged hs h b)
  have hpositions : (s.db.authorLinksOf b ++ appendedLinks s.db a b).map WorkAuthor.position =
      List.range (s.db.authorLinksOf b ++ appendedLinks s.db a b).length := by
    have hlength : (appendedLinks s.db a b).length = (linksToMove s.db a b).length := by
      unfold appendedLinks
      rw [List.length_map, List.length_zipIdx]
    rw [List.map_append, (authorList_of_shape (hs.links b)).positions, appendedLinks_positions,
      List.length_append, hlength, List.range_add, (authorLinksOf_perm s.db b).length_eq]
  refine eq_of_positions hperm ?_ ?_
  · rw [hlist.positions, hpositions, hperm.length_eq]
  · rw [hpositions]
    exact List.nodup_range

/-- **Author lists**: in every reachable state each has its links once and without gaps, and a
merge appends to the target's what it lacked of the source's. -/
theorem author_lists (h : (catalogRuns env).Reachable s) :
    (∀ id, AuthorList (s.db.authorLinksOf id)) ∧
      ∀ a b now s' summary, merge s a b now = .ok (s', summary) →
        (s'.db.authorLinksOf b).map linkKey = (s.db.authorLinksOf b).map linkKey ++
          ((s.db.authorLinksOf a).map linkKey).filter
            fun k => k ∉ (s.db.authorLinksOf b).map linkKey := by
  have hs := coherent_of_reachable h
  refine ⟨fun id => authorList_of_shape (hs.links id), fun a b now s' summary hmerge => ?_⟩
  rw [authorLinksOf_merged hs (merge_eq_ok hmerge), List.map_append, appendedLinks_keys]
  refine congrArg _ ?_
  unfold linksToMove
  rw [List.filter_map]
  rfl

/-- The second work has both authors after the merge, its own first. -/
theorem author_lists_kobzar : ∃ s : CatalogStore,
    s.db.workAuthors.map (fun l => (l.workId, l.authorId, l.position)) = [(2, 11, 1), (2, 12, 0)] ∧
      (∀ id, AuthorList (s.db.authorLinksOf id)) ∧
      ∀ a b now s' summary, merge s a b now = .ok (s', summary) →
        (s'.db.authorLinksOf b).map linkKey = (s.db.authorLinksOf b).map linkKey ++
          ((s.db.authorLinksOf a).map linkKey).filter
            fun k => k ∉ (s.db.authorLinksOf b).map linkKey := by
  have hruns : ((runOps kobzarOps emptyCatalogStore).any fun s =>
      s.db.workAuthors.map (fun l => (l.workId, l.authorId, l.position)) =
        [(2, 11, 1), (2, 12, 0)]) = true := by decide +kernel
  obtain ⟨s, hs, hlinks⟩ := (Option.any_eq_true _ _).mp hruns
  exact ⟨s, of_decide_eq_true hlinks, author_lists (reachable_kobzarOps hs)⟩

end Bookswap
