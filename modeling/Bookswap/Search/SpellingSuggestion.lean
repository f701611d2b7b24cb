import Bookswap.Lib.BestOfKey
import Mathlib.Algebra.Order.Ring.Rat
import Mathlib.Data.List.Infix
import Mathlib.Tactic.NormNum

/-!
# spelling-suggestion.ts

The choice of a corrected spelling. Scores are the rationals that the doubles are: a score that is
enough is at least one half, so the difference to the second is computed exactly, or both it and its
rounding are far above the margin. `isWordChar` are the characters `\p{L}` and `\p{N}`.
-/

namespace Bookswap

structure SpellingCandidate where
  text : String
  textNorm : String
  score : Rat
  deriving DecidableEq, Repr

def SPELLING_MIN_SCORE : Rat := 1 / 2

/-- The double of `0.1`. -/
def SPELLING_MIN_MARGIN : Rat := 3602879701896397 / 36028797018963968

def SPELLING_MIN_QUERY_CHARS : Nat := 4

variable (isWordChar : Char → Bool)

def tokensOf (text : String) : List String :=
  ((text.toList.splitOnP fun c => !isWordChar c).filter (· ≠ [])).map String.ofList

def isTokenPrefixOf (term candidate : String) : Bool :=
  let words := tokensOf isWordChar candidate
  (tokensOf isWordChar term).all fun token =>
    words.any fun word => token.toList.isPrefixOf word.toList

/-- What `distinct` tells candidates apart by. -/
def SpellingCandidate.signature (candidate : SpellingCandidate) : String :=
  " ".intercalate (tokensOf isWordChar candidate.textNorm)

/-- One candidate of each signature, the best first. -/
def distinct (candidates : List SpellingCandidate) : List SpellingCandidate :=
  BestOfKey.ranked (SpellingCandidate.signature isWordChar) SpellingCandidate.score candidates

/-- The candidate is a record of the query as it is: there is nothing to correct. -/
def knownAs (term : String) (candidate : SpellingCandidate) : Bool :=
  decide (term.toList <:+: candidate.textNorm.toList) ||
    isTokenPrefixOf isWordChar term candidate.textNorm

/-- The candidate whose text `chooseSpellingSuggestion` answers. -/
def chosenCandidate (term : String) (partialMatch : Bool) (candidates : List SpellingCandidate) :
    Option SpellingCandidate :=
  if partialMatch ∨ term.toList.length < SPELLING_MIN_QUERY_CHARS then none
  else if candidates.any (knownAs isWordChar term) then none
  else
    match distinct isWordChar candidates with
    | [] => none
    | best :: others =>
      if best.score < SPELLING_MIN_SCORE then none
      else
        match others.head? with
        | none => some best
        | some runnerUp =>
          if best.score - runnerUp.score < SPELLING_MIN_MARGIN then none else some best

def chooseSpellingSuggestion (term : String) (partialMatch : Bool)
    (candidates : List SpellingCandidate) : Option String :=
  (chosenCandidate isWordChar term partialMatch candidates).map SpellingCandidate.text

/-! ## What is chosen -/

/-- The candidate is above every other spelling by the margin. -/
abbrev Stands (candidates : List SpellingCandidate) (candidate : SpellingCandidate) : Prop :=
  BestOfKey.IsClear (SpellingCandidate.signature isWordChar) SpellingCandidate.score
    SPELLING_MIN_SCORE SPELLING_MIN_MARGIN candidates candidate

/-- Nothing speaks against a correction of the query. -/
def Correctable (term : String) (partialMatch : Bool) (candidates : List SpellingCandidate) :
    Prop :=
  partialMatch = false ∧ SPELLING_MIN_QUERY_CHARS ≤ term.toList.length ∧
    ∀ candidate ∈ candidates, knownAs isWordChar term candidate = false

theorem margin_pos : 0 < SPELLING_MIN_MARGIN := by
  unfold SPELLING_MIN_MARGIN
  norm_num

variable {isWordChar} {term : String} {partialMatch : Bool}
  {candidates candidates' : List SpellingCandidate}

/-- The chosen candidate stands out. -/
theorem chosenCandidate_stands {best : SpellingCandidate}
    (h : chosenCandidate isWordChar term partialMatch candidates = some best) :
    Correctable isWordChar term partialMatch candidates ∧ Stands isWordChar candidates best := by
  have hranked := BestOfKey.ranked_isRanked (SpellingCandidate.signature isWordChar)
    SpellingCandidate.score candidates
  unfold chosenCandidate at h
  split at h
  · cases h
  next hquery =>
    split at h
    · cases h
    next hrecords =>
      have hcorrectable : Correctable isWordChar term partialMatch candidates := by
        rw [not_or, Bool.not_eq_true] at hquery
        refine ⟨hquery.1, not_lt.mp hquery.2, fun candidate hmem => ?_⟩
        exact Bool.eq_false_iff.mpr fun hrecord =>
          hrecords (List.any_eq_true.mpr ⟨candidate, hmem, hrecord⟩)
      refine ⟨hcorrectable, ?_⟩
      change BestOfKey.IsRanked _ _ _ (distinct isWordChar candidates) at hranked
      split at h
      · cases h
      next first others hdistinct =>
        rw [hdistinct] at hranked
        split at h
        · cases h
        next henough =>
          split at h
          next hnone =>
            cases h
            exact hranked.isClear_iff.mpr ⟨not_lt.mp henough, by simp [hnone]⟩
          next runnerUp hsecond =>
            split at h
            · cases h
            next hahead =>
              cases h
              refine hranked.isClear_iff.mpr ⟨not_lt.mp henough, fun second hmem => ?_⟩
              cases hsecond.symm.trans hmem
              exact not_lt.mp hahead

/-- If one candidate stands out, one is chosen. -/
theorem chosenCandidate_isSome (hquery : Correctable isWordChar term partialMatch candidates)
    {candidate : SpellingCandidate} (h : Stands isWordChar candidates candidate) :
    ∃ best, chosenCandidate isWordChar term partialMatch candidates = some best := by
  have hranked := BestOfKey.ranked_isRanked (SpellingCandidate.signature isWordChar)
    SpellingCandidate.score candidates
  obtain ⟨hno, hlong, hrecords⟩ := hquery
  have hany : ¬ candidates.any (knownAs isWordChar term) = true := by
    rw [List.any_eq_true]
    rintro ⟨c, hc, hrecord⟩
    rw [hrecords c hc] at hrecord
    cases hrecord
  unfold chosenCandidate
  rw [if_neg (by simp [hno, hlong]), if_neg hany]
  change BestOfKey.IsRanked _ _ _ (distinct isWordChar candidates) at hranked
  cases hdistinct : distinct isWordChar candidates with
  | nil =>
    rw [hdistinct] at hranked
    obtain ⟨b, hb, -⟩ := hranked.covers candidate h.mem
    cases hb
  | cons best others =>
    rw [hdistinct] at hranked
    obtain ⟨henough, hahead⟩ := hranked.isClear_iff.mp (hranked.isClear_head margin_pos h)
    refine ⟨best, ?_⟩
    dsimp only
    rw [if_neg (not_lt.mpr henough)]
    cases hsecond : others.head? with
    | none => rfl
    | some runnerUp => exact if_neg (not_lt.mpr (hahead runnerUp hsecond))

/-- Whether the query can be corrected does not depend on the order of the candidates. -/
theorem Correctable.congr (hsame : ∀ c, c ∈ candidates ↔ c ∈ candidates')
    (h : Correctable isWordChar term partialMatch candidates) :
    Correctable isWordChar term partialMatch candidates' :=
  ⟨h.1, h.2.1, fun c hc => h.2.2 c ((hsame c).mpr hc)⟩

/-- What is chosen in one list is chosen in the other, up to the spelling. -/
theorem chosenCandidate_congr (hsame : ∀ c, c ∈ candidates ↔ c ∈ candidates')
    {best : SpellingCandidate}
    (h : chosenCandidate isWordChar term partialMatch candidates = some best) :
    ∃ best', chosenCandidate isWordChar term partialMatch candidates' = some best' ∧
      best'.signature isWordChar = best.signature isWordChar ∧ best'.score = best.score := by
  obtain ⟨hquery, hstands⟩ := chosenCandidate_stands h
  have hstands' : Stands isWordChar candidates' best := hstands.congr hsame
  obtain ⟨best', hbest'⟩ := chosenCandidate_isSome (hquery.congr hsame) hstands'
  exact ⟨best', hbest', (chosenCandidate_stands hbest').2.unique margin_pos hstands'⟩

/-- **The suggestion does not depend on the order of the rows** nor on their repetition: there is
one for both lists or for none, and the two are of one signature and one score. -/
theorem suggestion_order_free (isWordChar : Char → Bool) (term : String) (partialMatch : Bool)
    (candidates candidates' : List SpellingCandidate)
    (hsame : ∀ c, c ∈ candidates ↔ c ∈ candidates') :
    ((chooseSpellingSuggestion isWordChar term partialMatch candidates).isSome ↔
      (chooseSpellingSuggestion isWordChar term partialMatch candidates').isSome) ∧
    (chosenCandidate isWordChar term partialMatch candidates).map
        (fun c => (c.signature isWordChar, c.score)) =
      (chosenCandidate isWordChar term partialMatch candidates').map
        fun c => (c.signature isWordChar, c.score) := by
  have hmaps : (chosenCandidate isWordChar term partialMatch candidates).map
      (fun c => (c.signature isWordChar, c.score)) =
      (chosenCandidate isWordChar term partialMatch candidates').map
        fun c => (c.signature isWordChar, c.score) := by
    cases hbest : chosenCandidate isWordChar term partialMatch candidates with
    | some best =>
      obtain ⟨best', hbest', hsignature, hscore⟩ := chosenCandidate_congr hsame hbest
      rw [hbest', Option.map_some, Option.map_some, hsignature, hscore]
    | none =>
      cases hbest' : chosenCandidate isWordChar term partialMatch candidates' with
      | none => rfl
      | some best' =>
        obtain ⟨best, hsome, -⟩ := chosenCandidate_congr (fun c => (hsame c).symm) hbest'
        rw [hbest] at hsome
        cases hsome
  refine ⟨?_, hmaps⟩
  have hisSome := congrArg Option.isSome hmaps
  simp only [Option.isSome_map] at hisSome
  simp only [chooseSpellingSuggestion, Option.isSome_map, hisSome]

section Misspelt

/-- A query without its doubled letter, and two records of the title that was meant. -/
def misspelt : List SpellingCandidate :=
  [⟨"Гаррі Поттер", "гаррі поттер", 3 / 5⟩, ⟨"гаррі поттер", "гаррі поттер", 3 / 5⟩]

theorem suggestion_order_free_misspelt :
    ((chooseSpellingSuggestion (fun c => c ≠ ' ') "гарі потер" false misspelt).isSome ↔
      (chooseSpellingSuggestion (fun c => c ≠ ' ') "гарі потер" false
        (misspelt.reverse ++ misspelt)).isSome) ∧
    (chosenCandidate (fun c => c ≠ ' ') "гарі потер" false misspelt).map
        (fun c => (c.signature fun c => c ≠ ' ', c.score)) =
      (chosenCandidate (fun c => c ≠ ' ') "гарі потер" false (misspelt.reverse ++ misspelt)).map
        fun c => (c.signature fun c => c ≠ ' ', c.score) :=
  suggestion_order_free (fun c => c ≠ ' ') "гарі потер" false misspelt
    (misspelt.reverse ++ misspelt) (by simp)

end Misspelt

end Bookswap
