import Bookswap.Import.RowValues
import Bookswap.Lib.Rounding
import Mathlib.Algebra.Order.BigOperators.Group.List
import Mathlib.Data.Finset.Card
import Mathlib.Tactic.NormNum

/-!
# search-relevance.ts

The score of a title and its authors against a query. The fold of a text, `comparableText`, is
Unicode normalization and stays a parameter; the weights are the rationals that the source writes.
-/

namespace Bookswap

variable (comparableText : String → String)

/-- The fold, split into words; an empty string yields none. -/
def comparableTokens (value : String) : List String :=
  let normalized := comparableText value
  if normalized = "" then [] else (normalized.toList.splitOn ' ').map String.ofList

def INFLECTION_ENDINGS : List String :=
  ["", "а", "я", "у", "ю", "и", "і", "е", "о", "ь",
    "ии", "іи", "ои", "еи", "ою", "ею", "ам", "ах", "ям", "ях", "ом", "ем", "им", "ім", "ів", "ов",
    "ев", "оі", "еі",
    "ого", "ому", "его", "ему", "ами", "ями", "ові", "еві", "ими", "іми",
    "s", "es"]

def MIN_STEM_LENGTH : Nat := 4

/-- The word minus each ending that it carries. -/
def stemCandidates (word : String) : List String :=
  INFLECTION_ENDINGS.filterMap fun ending =>
    if ending.toList.isSuffixOf word.toList then
      let stem := String.ofList (word.toList.take (word.toList.length - ending.toList.length))
      if MIN_STEM_LENGTH ≤ utf16Length stem then some stem else none
    else none

def sameStem (token word : String) : Bool :=
  (stemCandidates word).any fun stem => (stemCandidates token).contains stem

def tokenMatch (token word : String) : Rat :=
  if token = word then 1 else if sameStem token word then 3 / 5 else 0

structure RelevanceSubject where
  title : String
  authors : Option (List String)
  deriving DecidableEq, Repr

structure Relevance where
  matched : Bool
  score : Int
  deriving DecidableEq, Repr

def EXACT_TITLE_BONUS : Int := 1000
def WHOLE_QUERY_IN_TITLE_BONUS : Int := 400
def TITLE_COVERAGE_WEIGHT : Rat := 200
def AUTHOR_COVERAGE_WEIGHT : Rat := 100
def TITLE_TIGHTNESS_WEIGHT : Rat := 100

/-- The best weight of a token among the words of the title, and where it is first reached. -/
def bestInTitle (token : String) (titleWords : List String) : Rat × Int :=
  titleWords.zipIdx.foldl
    (fun best entry =>
      let weight := tokenMatch token entry.1
      if weight > best.1 then (weight, (entry.2 : Int)) else best)
    (0, -1)

/-- The best weight of a token among words. -/
def bestAmong (token : String) (words : List String) : Rat :=
  words.foldl (fun best word => max best (tokenMatch token word)) 0

/-- The variables of the loop over the tokens. -/
structure RelevanceTally where
  titleWeight : Rat := 0
  authorWeight : Rat := 0
  matchedTokens : Nat := 0
  coveredTitleWords : Finset Int := ∅

namespace RelevanceTally

/-- One turn of the loop. -/
def count (titleWords authorWords : List String) (tally : RelevanceTally) (token : String) :
    RelevanceTally :=
  let bestTitle := bestInTitle token titleWords
  let bestAuthor := bestAmong token authorWords
  { titleWeight :=
      if bestTitle.1 > 0 then tally.titleWeight + bestTitle.1 else tally.titleWeight
    coveredTitleWords :=
      if bestTitle.1 > 0 then insert bestTitle.2 tally.coveredTitleWords
      else tally.coveredTitleWords
    authorWeight := tally.authorWeight + bestAuthor
    matchedTokens :=
      if bestTitle.1 > 0 ∨ bestAuthor > 0 then tally.matchedTokens + 1 else tally.matchedTokens }

/-- The whole loop. -/
def ofTokens (titleWords authorWords tokens : List String) : RelevanceTally :=
  tokens.foldl (count titleWords authorWords) {}

end RelevanceTally

/-- The words of all authors. -/
def authorWordsOf (subject : RelevanceSubject) : List String :=
  (subject.authors.getD []).flatMap (comparableTokens comparableText)

def relevanceOf (query : String) (subject : RelevanceSubject) : Relevance :=
  let tokens := comparableTokens comparableText query
  if tokens = [] then { matched := false, score := 0 }
  else
    let titleWords := comparableTokens comparableText subject.title
    let authorWords := authorWordsOf comparableText subject
    let tally := RelevanceTally.ofTokens titleWords authorWords tokens
    let exactTitle := comparableText subject.title = comparableText query
    let wholeQueryInTitle := tally.titleWeight ≥ tokens.length
    let titleTightness : Rat :=
      if titleWords.length = 0 then 0 else tally.coveredTitleWords.card / titleWords.length
    { matched := tally.matchedTokens = tokens.length
      score :=
        (if exactTitle then EXACT_TITLE_BONUS else 0) +
        (if wholeQueryInTitle then WHOLE_QUERY_IN_TITLE_BONUS else 0) +
        mathRound (TITLE_COVERAGE_WEIGHT * tally.titleWeight / tokens.length) +
        mathRound (AUTHOR_COVERAGE_WEIGHT * tally.authorWeight / tokens.length) +
        mathRound (TITLE_TIGHTNESS_WEIGHT * titleTightness) }

/-! ## Weights -/

variable {token : String} {words : List String}

theorem tokenMatch_cases (token word : String) :
    token = word ∧ tokenMatch token word = 1 ∨
      token ≠ word ∧ (tokenMatch token word = 3 / 5 ∨ tokenMatch token word = 0) := by
  unfold tokenMatch
  by_cases h : token = word
  · exact .inl ⟨h, if_pos h⟩
  · rw [if_neg h]
    exact .inr ⟨h, by split <;> simp⟩

@[simp] theorem tokenMatch_self (token : String) : tokenMatch token token = 1 := if_pos rfl

theorem bestAmong_append_singleton (token : String) (words : List String) (word : String) :
    bestAmong token (words ++ [word]) = max (bestAmong token words) (tokenMatch token word) := by
  rw [bestAmong, List.foldl_append]
  rfl

/-- Every word is a lower bound of the best weight. -/
theorem tokenMatch_le_bestAmong {word : String} (h : word ∈ words) :
    tokenMatch token word ≤ bestAmong token words := by
  induction words using List.reverseRecOn with
  | nil => cases h
  | append_singleton words last ih =>
    rw [bestAmong_append_singleton]
    rcases List.mem_append.mp h with h | h
    · exact (ih h).trans (le_max_left _ _)
    · cases List.mem_singleton.mp h
      exact le_max_right _ _

/-- The best weight is nothing or that of a word. -/
theorem bestAmong_cases (token : String) (words : List String) :
    bestAmong token words = 0 ∨ ∃ word ∈ words, bestAmong token words = tokenMatch token word := by
  induction words using List.reverseRecOn with
  | nil => exact .inl rfl
  | append_singleton words last ih =>
    rw [bestAmong_append_singleton]
    rcases max_choice (bestAmong token words) (tokenMatch token last) with h | h
    · rw [h]
      rcases ih with ih | ⟨word, hmem, hword⟩
      · exact .inl ih
      · exact .inr ⟨word, List.mem_append_left _ hmem, hword⟩
    · rw [h]
      exact .inr ⟨last, by simp, rfl⟩

theorem bestAmong_nonneg (token : String) (words : List String) : 0 ≤ bestAmong token words := by
  rcases bestAmong_cases token words with h | ⟨word, -, h⟩
  · exact h.ge
  · rcases tokenMatch_cases token word with ⟨-, hw⟩ | ⟨-, hw | hw⟩ <;> rw [h, hw] <;> norm_num

theorem bestAmong_le_one (token : String) (words : List String) : bestAmong token words ≤ 1 := by
  rcases bestAmong_cases token words with h | ⟨word, -, h⟩
  · rw [h]
    norm_num
  · rcases tokenMatch_cases token word with ⟨-, hw⟩ | ⟨-, hw | hw⟩ <;> rw [h, hw]
    norm_num
    norm_num

/-- Only the word itself has the full weight. -/
theorem bestAmong_eq_one_iff : bestAmong token words = 1 ↔ token ∈ words := by
  constructor
  · intro hone
    rcases bestAmong_cases token words with h | ⟨word, hmem, h⟩
    · rw [hone] at h
      norm_num at h
    · rcases tokenMatch_cases token word with ⟨rfl, -⟩ | ⟨-, hw | hw⟩
      · exact hmem
      · rw [hone, hw] at h
        norm_num at h
      · rw [hone, hw] at h
        norm_num at h
  · intro hmem
    refine le_antisymm (bestAmong_le_one token words) ?_
    rw [← tokenMatch_self token]
    exact tokenMatch_le_bestAmong hmem

/-- A weight that is something is that of a stem at least. -/
theorem bestAmong_pos (h : 0 < bestAmong token words) : 3 / 5 ≤ bestAmong token words := by
  rcases bestAmong_cases token words with h' | ⟨word, -, h'⟩
  · exact absurd h (by rw [h']; exact lt_irrefl 0)
  · rcases tokenMatch_cases token word with ⟨-, hw⟩ | ⟨-, hw | hw⟩
    · rw [h', hw]
      norm_num
    · rw [h', hw]
    · exact absurd h (by rw [h', hw]; exact lt_irrefl 0)

/-- More words are no worse. -/
theorem bestAmong_mono {words' : List String} (h : words ⊆ words') :
    bestAmong token words ≤ bestAmong token words' := by
  rcases bestAmong_cases token words with h' | ⟨word, hmem, h'⟩
  · rw [h']
    exact bestAmong_nonneg token words'
  · rw [h']
    exact tokenMatch_le_bestAmong (h hmem)

/-- The weight that is found in the title is the best one, at the place of a word. -/
theorem bestInTitle_spec (token : String) (titleWords : List String) :
    (bestInTitle token titleWords).1 = bestAmong token titleWords ∧
      (0 < bestAmong token titleWords →
        ∃ index < titleWords.length, (bestInTitle token titleWords).2 = (index : Int)) := by
  induction titleWords using List.reverseRecOn with
  | nil => exact ⟨rfl, fun h => absurd h (lt_irrefl _)⟩
  | append_singleton words last ih =>
    obtain ⟨hweight, hindex⟩ := ih
    have hstep : bestInTitle token (words ++ [last]) =
        if tokenMatch token last > (bestInTitle token words).1 then
          (tokenMatch token last, (words.length : Int))
        else bestInTitle token words := by
      rw [bestInTitle, List.zipIdx_append, List.foldl_append, Nat.zero_add]
      rfl
    rw [hstep, bestAmong_append_singleton, hweight, List.length_append, List.length_singleton]
    split
    next hgt => exact ⟨(max_eq_right hgt.le).symm, fun _ => ⟨words.length, by omega, rfl⟩⟩
    next hle =>
      rw [max_eq_left (not_lt.mp hle)]
      refine ⟨hweight, fun hpos => ?_⟩
      obtain ⟨index, hlt, heq⟩ := hindex hpos
      exact ⟨index, by omega, heq⟩

/-! ## The loop -/

/-- What the loop has counted. -/
structure RelevanceTally.Of (titleWords authorWords tokens : List String)
    (tally : RelevanceTally) : Prop where
  titleWeight : tally.titleWeight = (tokens.map fun t => bestAmong t titleWords).sum
  authorWeight : tally.authorWeight = (tokens.map fun t => bestAmong t authorWords).sum
  matchedTokens : tally.matchedTokens =
    tokens.countP fun t => bestAmong t titleWords > 0 ∨ bestAmong t authorWords > 0
  covered : ∀ index ∈ tally.coveredTitleWords, ∃ i < titleWords.length, index = (i : Int)
  covered_of : tally.coveredTitleWords.Nonempty → ∃ t ∈ tokens, 0 < bestAmong t titleWords

/-- **The step**: one more token is counted. -/
theorem RelevanceTally.Of.count {titleWords authorWords tokens : List String}
    {tally : RelevanceTally} (h : tally.Of titleWords authorWords tokens) (token : String) :
    (tally.count titleWords authorWords token).Of titleWords authorWords (tokens ++ [token]) := by
  obtain ⟨hweight, hindex⟩ := bestInTitle_spec token titleWords
  constructor
  · simp only [RelevanceTally.count, hweight, h.titleWeight, List.map_append, List.sum_append,
      List.map_cons, List.map_nil, List.sum_singleton]
    split
    next => rfl
    next hnot => rw [le_antisymm (not_lt.mp hnot) (bestAmong_nonneg _ _), add_zero]
  · simp only [RelevanceTally.count, h.authorWeight, List.map_append, List.sum_append,
      List.map_cons, List.map_nil, List.sum_singleton]
  · simp only [RelevanceTally.count, hweight, h.matchedTokens, List.countP_append,
      List.countP_singleton, decide_eq_true_eq]
    split <;> rfl
  · intro index hmem
    simp only [RelevanceTally.count, hweight] at hmem
    split at hmem
    next hpos =>
      rcases Finset.mem_insert.mp hmem with rfl | hmem
      · exact hindex hpos
      · exact h.covered index hmem
    next => exact h.covered index hmem
  · intro hne
    simp only [RelevanceTally.count, hweight] at hne
    split at hne
    next hpos => exact ⟨token, by simp, hpos⟩
    next =>
      obtain ⟨t, ht, hpos⟩ := h.covered_of hne
      exact ⟨t, List.mem_append_left _ ht, hpos⟩

theorem RelevanceTally.ofTokens_of (titleWords authorWords tokens : List String) :
    (RelevanceTally.ofTokens titleWords authorWords tokens).Of titleWords authorWords tokens := by
  induction tokens using List.reverseRecOn with
  | nil =>
    exact
      { titleWeight := rfl
        authorWeight := rfl
        matchedTokens := rfl
        covered := fun _ h => absurd h (Finset.notMem_empty _)
        covered_of := fun h => absurd h Finset.not_nonempty_empty }
  | append_singleton tokens last ih =>
    rw [RelevanceTally.ofTokens, List.foldl_append]
    exact ih.count last

/-- No more words are covered than there are. -/
theorem RelevanceTally.Of.card_le {titleWords authorWords tokens : List String}
    {tally : RelevanceTally} (h : tally.Of titleWords authorWords tokens) :
    tally.coveredTitleWords.card ≤ titleWords.length := by
  have hsub : tally.coveredTitleWords ⊆ (Finset.range titleWords.length).image Nat.cast := by
    intro index hmem
    obtain ⟨i, hlt, rfl⟩ := h.covered index hmem
    exact Finset.mem_image.mpr ⟨i, Finset.mem_range.mpr hlt, rfl⟩
  calc tally.coveredTitleWords.card
      ≤ ((Finset.range titleWords.length).image (Nat.cast : Nat → Int)).card :=
        Finset.card_le_card hsub
    _ ≤ (Finset.range titleWords.length).card := Finset.card_image_le
    _ = titleWords.length := Finset.card_range _

end Bookswap
