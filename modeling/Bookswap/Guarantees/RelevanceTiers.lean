import Bookswap.Search.SearchRelevance

/-!
# Tiers of relevance

Each addend of a score has a bound of its own, whatever the number of tokens and words: the three
rounded ratios stay within their weights, and the two bonuses are above what the ratios can add.

- `weights_le_length`, `length_le_weights_iff`: the weights of the tokens, added up.
- `score_eq`: the score of a query with tokens as its five addends.
- `relevance_tiers`: the tiers do not mix.
-/

namespace Bookswap

/-! ## Weights of all tokens -/

section Weights

variable {tokens words words' : List String}

/-- The weights of the tokens among the words, added up. -/
abbrev weights (tokens words : List String) : Rat := (tokens.map fun t => bestAmong t words).sum

theorem weights_nonneg (tokens words : List String) : 0 ≤ weights tokens words :=
  List.sum_nonneg fun x hx => by
    obtain ⟨t, -, rfl⟩ := List.mem_map.mp hx
    exact bestAmong_nonneg t words

theorem weights_le_length (tokens words : List String) : weights tokens words ≤ tokens.length := by
  induction tokens with
  | nil => exact le_refl _
  | cons t tokens ih =>
    have hone := bestAmong_le_one t words
    simp only [weights, List.map_cons, List.sum_cons, List.length_cons] at ih ⊢
    push_cast
    linarith

/-- The full weight needs every token as a whole word. -/
theorem length_le_weights_iff :
    (tokens.length : Rat) ≤ weights tokens words ↔ ∀ t ∈ tokens, t ∈ words := by
  induction tokens with
  | nil => simp [weights]
  | cons t tokens ih =>
    have hone := bestAmong_le_one t words
    have hrest := weights_le_length tokens words
    rw [List.forall_mem_cons, ← ih, ← bestAmong_eq_one_iff]
    simp only [weights, List.map_cons, List.sum_cons, List.length_cons] at hrest ⊢
    push_cast
    constructor
    · intro h
      exact ⟨le_antisymm hone (by linarith), by linarith⟩
    · rintro ⟨h, hle⟩
      linarith

theorem weights_mono (h : words ⊆ words') : weights tokens words ≤ weights tokens words' :=
  List.sum_le_sum fun _ _ => bestAmong_mono h

/-- A ratio of the weights is at most its own weight. -/
theorem ratio_le (hne : tokens ≠ []) {c : Rat} (hc : 0 ≤ c) :
    c * weights tokens words / tokens.length ≤ c := by
  have hlength : (0 : Rat) < tokens.length :=
    Nat.cast_pos.mpr (List.length_pos_iff.mpr hne)
  rw [div_le_iff₀ hlength]
  exact mul_le_mul_of_nonneg_left (weights_le_length tokens words) hc

theorem ratio_nonneg {c : Rat} (hc : 0 ≤ c) : 0 ≤ c * weights tokens words / tokens.length :=
  div_nonneg (mul_nonneg hc (weights_nonneg tokens words)) (Nat.cast_nonneg _)

theorem weights_eq_zero (h : ∀ t ∈ tokens, bestAmong t words = 0) : weights tokens words = 0 := by
  rw [weights, List.map_congr_left h]
  simp

/-- If every token has something in one of two places, the places have something together. -/
theorem le_weights_add (h : ∀ t ∈ tokens, 0 < bestAmong t words ∨ 0 < bestAmong t words') :
    3 / 5 * (tokens.length : Rat) ≤ weights tokens words + weights tokens words' := by
  induction tokens with
  | nil => simp [weights]
  | cons t tokens ih =>
    obtain ⟨ht, hrest⟩ := List.forall_mem_cons.mp h
    have hle := ih hrest
    have hstem : 3 / 5 ≤ bestAmong t words + bestAmong t words' := by
      have hn := bestAmong_nonneg t words
      have hn' := bestAmong_nonneg t words'
      rcases ht with ht | ht
      · have := bestAmong_pos ht
        linarith
      · have := bestAmong_pos ht
        linarith
    simp only [weights, List.map_cons, List.sum_cons, List.length_cons] at hle ⊢
    push_cast
    linarith

end Weights

/-! ## The addends of a score -/

variable (comparableText : String → String) (query : String) (subject : RelevanceSubject)

/-- Every token of the query is a word of the title. -/
def WholeQueryIn : Prop :=
  ∀ token ∈ comparableTokens comparableText query,
    token ∈ comparableTokens comparableText subject.title

/-- No token has anything in common with a word of the title or of an author. -/
def NothingIn : Prop :=
  ∀ token ∈ comparableTokens comparableText query,
    ∀ word ∈ comparableTokens comparableText subject.title ++ authorWordsOf comparableText subject,
      tokenMatch token word = 0

def titleCoverage : Int :=
  mathRound (TITLE_COVERAGE_WEIGHT * weights (comparableTokens comparableText query)
    (comparableTokens comparableText subject.title) /
      (comparableTokens comparableText query).length)

def authorCoverage : Int :=
  mathRound (AUTHOR_COVERAGE_WEIGHT * weights (comparableTokens comparableText query)
    (authorWordsOf comparableText subject) / (comparableTokens comparableText query).length)

/-- How much of the title the tokens cover. -/
def titleTightness : Int :=
  let titleWords := comparableTokens comparableText subject.title
  let tally := RelevanceTally.ofTokens titleWords (authorWordsOf comparableText subject)
    (comparableTokens comparableText query)
  let covered : Rat :=
    if titleWords.length = 0 then 0 else tally.coveredTitleWords.card / titleWords.length
  mathRound (TITLE_TIGHTNESS_WEIGHT * covered)

variable {comparableText} {query} {subject}

variable (subject) in
theorem titleCoverage_bounds (hquery : comparableTokens comparableText query ≠ []) :
    0 ≤ titleCoverage comparableText query subject ∧
      titleCoverage comparableText query subject ≤ 200 :=
  ⟨le_mathRound (by exact_mod_cast ratio_nonneg (by norm_num [TITLE_COVERAGE_WEIGHT])),
    mathRound_le (by exact_mod_cast ratio_le hquery (by norm_num [TITLE_COVERAGE_WEIGHT]))⟩

variable (subject) in
theorem authorCoverage_bounds (hquery : comparableTokens comparableText query ≠ []) :
    0 ≤ authorCoverage comparableText query subject ∧
      authorCoverage comparableText query subject ≤ 100 :=
  ⟨le_mathRound (by exact_mod_cast ratio_nonneg (by norm_num [AUTHOR_COVERAGE_WEIGHT])),
    mathRound_le (by exact_mod_cast ratio_le hquery (by norm_num [AUTHOR_COVERAGE_WEIGHT]))⟩

theorem titleTightness_bounds :
    0 ≤ titleTightness comparableText query subject ∧
      titleTightness comparableText query subject ≤ 100 := by
  have hcard := (RelevanceTally.ofTokens_of (comparableTokens comparableText subject.title)
    (authorWordsOf comparableText subject) (comparableTokens comparableText query)).card_le
  unfold titleTightness TITLE_TIGHTNESS_WEIGHT
  dsimp only
  split
  next => exact ⟨le_mathRound (by norm_num), mathRound_le (by norm_num)⟩
  next hne =>
    have hlength : (0 : Rat) < (comparableTokens comparableText subject.title).length :=
      Nat.cast_pos.mpr (Nat.pos_of_ne_zero hne)
    constructor
    · exact le_mathRound (by push_cast; positivity)
    · refine mathRound_le ?_
      have hle := (div_le_one₀ hlength).mpr (Nat.cast_le.mpr hcard)
      push_cast
      linarith

variable (subject) in
/-- **The score of a query with tokens** and whether it is matched. -/
theorem relevanceOf_eq (hquery : comparableTokens comparableText query ≠ []) :
    ((relevanceOf comparableText query subject).matched = true ↔
      ∀ token ∈ comparableTokens comparableText query,
        0 < bestAmong token (comparableTokens comparableText subject.title) ∨
          0 < bestAmong token (authorWordsOf comparableText subject)) ∧
    ∃ exact whole : Int,
      (relevanceOf comparableText query subject).score = exact + whole +
        titleCoverage comparableText query subject + authorCoverage comparableText query subject +
        titleTightness comparableText query subject ∧
      (exact = if comparableText subject.title = comparableText query then 1000 else 0) ∧
      (WholeQueryIn comparableText query subject → whole = 400) ∧
      (¬ WholeQueryIn comparableText query subject → whole = 0) := by
  have hof := RelevanceTally.ofTokens_of (comparableTokens comparableText subject.title)
    (authorWordsOf comparableText subject) (comparableTokens comparableText query)
  unfold relevanceOf
  dsimp only
  rw [if_neg hquery, hof.titleWeight, hof.authorWeight, hof.matchedTokens]
  refine ⟨?_, if comparableText subject.title = comparableText query then 1000 else 0,
    if ((comparableTokens comparableText query).length : Rat) ≤
        weights (comparableTokens comparableText query)
          (comparableTokens comparableText subject.title) then 400 else 0,
    rfl, rfl, fun hwhole => ?_, fun hnot => ?_⟩
  · rw [decide_eq_true_eq, List.countP_eq_length]
    exact forall₂_congr fun token _ => decide_eq_true_iff
  · exact if_pos (length_le_weights_iff.mpr hwhole)
  · exact if_neg fun h => hnot (length_le_weights_iff.mp h)

/-- Tokens that have nothing in common with the words have no weight. -/
theorem NothingIn.bestAmong (h : NothingIn comparableText query subject) {token : String}
    (ht : token ∈ comparableTokens comparableText query) :
    bestAmong token (comparableTokens comparableText subject.title) = 0 ∧
      bestAmong token (authorWordsOf comparableText subject) = 0 := by
  constructor
  · rcases bestAmong_cases token (comparableTokens comparableText subject.title) with
      hzero | ⟨word, hmem, hword⟩
    · exact hzero
    · rw [hword]
      exact h token ht word (List.mem_append_left _ hmem)
  · rcases bestAmong_cases token (authorWordsOf comparableText subject) with
      hzero | ⟨word, hmem, hword⟩
    · exact hzero
    · rw [hword]
      exact h token ht word (List.mem_append_right _ hmem)

/-- The words of more authors are more words. -/
theorem authorWordsOf_subset {authors : List String}
    (h : subject.authors.getD [] ⊆ authors) : authorWordsOf comparableText subject ⊆
      authorWordsOf comparableText { subject with authors := some authors } := by
  intro word hword
  obtain ⟨author, hauthor, hmem⟩ := List.mem_flatMap.mp hword
  exact List.mem_flatMap.mpr ⟨author, h hauthor, hmem⟩

/-- What the tiers promise of a query with tokens. -/
structure RelevanceTiers (comparableText : String → String) (query : String)
    (subject : RelevanceSubject) : Prop where
  exact : comparableText subject.title = comparableText query →
    1600 ≤ (relevanceOf comparableText query subject).score
  whole : comparableText subject.title ≠ comparableText query →
    WholeQueryIn comparableText query subject →
    600 ≤ (relevanceOf comparableText query subject).score ∧
      (relevanceOf comparableText query subject).score ≤ 800
  rest : comparableText subject.title ≠ comparableText query →
    ¬ WholeQueryIn comparableText query subject →
    (relevanceOf comparableText query subject).score ≤ 400
  positive : (relevanceOf comparableText query subject).matched = true →
    0 < (relevanceOf comparableText query subject).score
  zero : NothingIn comparableText query subject →
    (relevanceOf comparableText query subject).score = 0
  authors : ∀ authors, subject.authors.getD [] ⊆ authors →
    (relevanceOf comparableText query subject).score ≤
      (relevanceOf comparableText query { subject with authors := some authors }).score ∧
    ((relevanceOf comparableText query subject).matched = true →
      (relevanceOf comparableText query { subject with authors := some authors }).matched = true)

/-! ## The tiers -/

/-- The whole query in the title is full coverage. -/
theorem titleCoverage_of_whole (hquery : comparableTokens comparableText query ≠ [])
    (h : WholeQueryIn comparableText query subject) :
    titleCoverage comparableText query subject = 200 := by
  refine le_antisymm (titleCoverage_bounds subject hquery).2 (le_mathRound ?_)
  have hlength : (0 : Rat) < (comparableTokens comparableText query).length :=
    Nat.cast_pos.mpr (List.length_pos_iff.mpr hquery)
  rw [TITLE_COVERAGE_WEIGHT, le_div_iff₀ hlength]
  have hfull := length_le_weights_iff.mpr h
  push_cast
  linarith

theorem wholeQueryIn_of_exact (h : comparableText subject.title = comparableText query) :
    WholeQueryIn comparableText query subject := by
  have htokens : comparableTokens comparableText subject.title =
      comparableTokens comparableText query := by
    unfold comparableTokens
    rw [h]
  intro token hmem
  rw [htokens]
  exact hmem

/-- A matched query is found in the title or among the authors to a noticeable part. -/
theorem coverage_pos (hquery : comparableTokens comparableText query ≠ [])
    (h : ∀ token ∈ comparableTokens comparableText query,
      0 < bestAmong token (comparableTokens comparableText subject.title) ∨
        0 < bestAmong token (authorWordsOf comparableText subject)) :
    0 < titleCoverage comparableText query subject +
      authorCoverage comparableText query subject := by
  have hsum := le_weights_add h
  have hlength : (0 : Rat) < (comparableTokens comparableText query).length :=
    Nat.cast_pos.mpr (List.length_pos_iff.mpr hquery)
  have htitle := (titleCoverage_bounds subject hquery).1
  have hauthor := (authorCoverage_bounds subject hquery).1
  rcases le_total (3 / 10 * ((comparableTokens comparableText query).length : Rat))
      (weights (comparableTokens comparableText query)
        (comparableTokens comparableText subject.title)) with hle | hle
  · have hsixty : 60 ≤ titleCoverage comparableText query subject := by
      refine le_mathRound ?_
      rw [TITLE_COVERAGE_WEIGHT, le_div_iff₀ hlength]
      push_cast
      linarith
    omega
  · have hthirty : 30 ≤ authorCoverage comparableText query subject := by
      refine le_mathRound ?_
      rw [AUTHOR_COVERAGE_WEIGHT, le_div_iff₀ hlength]
      push_cast
      linarith
    omega

/-- Without a match there is nothing to add up. -/
theorem NothingIn.addends (h : NothingIn comparableText query subject) :
    titleCoverage comparableText query subject = 0 ∧
      authorCoverage comparableText query subject = 0 ∧
      titleTightness comparableText query subject = 0 := by
  have hround : mathRound 0 = 0 := by norm_num [mathRound]
  refine ⟨?_, ?_, ?_⟩
  · rw [titleCoverage, weights_eq_zero fun token ht => (h.bestAmong ht).1, mul_zero, zero_div,
      hround]
  · rw [authorCoverage, weights_eq_zero fun token ht => (h.bestAmong ht).2, mul_zero, zero_div,
      hround]
  · have hof := RelevanceTally.ofTokens_of (comparableTokens comparableText subject.title)
      (authorWordsOf comparableText subject) (comparableTokens comparableText query)
    have hempty := Finset.not_nonempty_iff_eq_empty.mp fun hne => by
      obtain ⟨token, ht, hpos⟩ := hof.covered_of hne
      rw [(h.bestAmong ht).1] at hpos
      exact lt_irrefl _ hpos
    simp only [titleTightness, hempty, Finset.card_empty, Nat.cast_zero, zero_div, ite_self,
      mul_zero, hround]

/-- Which words of the title are covered does not depend on the authors. -/
theorem coveredTitleWords_congr (titleWords authorWords authorWords' tokens : List String) :
    (RelevanceTally.ofTokens titleWords authorWords tokens).coveredTitleWords =
      (RelevanceTally.ofTokens titleWords authorWords' tokens).coveredTitleWords := by
  induction tokens using List.reverseRecOn with
  | nil => rfl
  | append_singleton tokens last ih =>
    simp only [RelevanceTally.ofTokens, List.foldl_append, List.foldl_cons, List.foldl_nil,
      RelevanceTally.count] at ih ⊢
    rw [ih]

/-- **The tiers of relevance do not mix.** -/
theorem relevance_tiers (comparableText : String → String) (query : String)
    (subject : RelevanceSubject) (hquery : comparableTokens comparableText query ≠ []) :
    RelevanceTiers comparableText query subject := by
  obtain ⟨hmatched, exact, whole, hscore, hexact, hwhole, hnot⟩ :=
    relevanceOf_eq subject hquery
  have htitle := titleCoverage_bounds subject hquery
  have hauthor := authorCoverage_bounds subject hquery
  have htight := @titleTightness_bounds comparableText query subject
  constructor
  · intro heq
    have hin := wholeQueryIn_of_exact heq
    have hfull := titleCoverage_of_whole hquery hin
    rw [if_pos heq] at hexact
    have := hwhole hin
    omega
  · intro hne hin
    have hfull := titleCoverage_of_whole hquery hin
    rw [if_neg hne] at hexact
    have := hwhole hin
    omega
  · intro hne hnotin
    rw [if_neg hne] at hexact
    have := hnot hnotin
    omega
  · intro hm
    have hpos := coverage_pos hquery (hmatched.mp hm)
    have hbonus : 0 ≤ exact ∧ 0 ≤ whole := by
      constructor
      · rw [hexact]
        split <;> decide
      · by_cases hin : WholeQueryIn comparableText query subject
        · rw [hwhole hin]
          decide
        · rw [hnot hin]
    omega
  · intro hnothing
    obtain ⟨htitle0, hauthor0, htight0⟩ := hnothing.addends
    obtain ⟨token, htoken⟩ := List.exists_mem_of_ne_nil _ hquery
    -- a whole word would have been a match
    have hnotin : ¬ WholeQueryIn comparableText query subject := fun hin => by
      have hone := bestAmong_eq_one_iff.mpr (hin token htoken)
      rw [(hnothing.bestAmong htoken).1] at hone
      exact zero_ne_one hone
    have hne : comparableText subject.title ≠ comparableText query := fun heq =>
      hnotin (wholeQueryIn_of_exact heq)
    rw [if_neg hne] at hexact
    have := hnot hnotin
    omega
  · intro authors hsub
    obtain ⟨hmatched', exact', whole', hscore', hexact', hwhole', hnot'⟩ :=
      relevanceOf_eq { subject with authors := some authors } hquery
    have hwords := @authorWordsOf_subset comparableText subject authors hsub
    constructor
    · have hsame : exact = exact' := hexact.trans hexact'.symm
      have hbonus : whole = whole' := by
        by_cases hin : WholeQueryIn comparableText query subject
        · exact (hwhole hin).trans (hwhole' hin).symm
        · exact (hnot hin).trans (hnot' hin).symm
      have hcoverage : titleCoverage comparableText query subject =
          titleCoverage comparableText query { subject with authors := some authors } := rfl
      have htightness : titleTightness comparableText query subject =
          titleTightness comparableText query { subject with authors := some authors } := by
        unfold titleTightness
        dsimp only
        rw [coveredTitleWords_congr]
      have hmore : authorCoverage comparableText query subject ≤
          authorCoverage comparableText query { subject with authors := some authors } := by
        refine mathRound_mono (div_le_div_of_nonneg_right ?_ (Nat.cast_nonneg _))
        exact mul_le_mul_of_nonneg_left (weights_mono hwords) (by norm_num [AUTHOR_COVERAGE_WEIGHT])
      omega
    · intro hm
      refine hmatched'.mpr fun token htoken => ?_
      rcases hmatched.mp hm token htoken with h | h
      · exact .inl h
      · exact .inr (h.trans_le (bestAmong_mono hwords))

theorem relevance_tiers_tyhrolovy : RelevanceTiers id "тигролови багрянии"
    ⟨"тигролови", some ["іван багряного"]⟩ :=
  relevance_tiers id "тигролови багрянии" ⟨"тигролови", some ["іван багряного"]⟩ (by decide)

end Bookswap
