import Tr50.Machinery.Tokens
import Tr50.Util.Error
import Tr50.Util.Memory

/-!
# At/Parser — the parameters of an AT command

`src/util/he910/wrappers/at.parser.c`, as the simulator builds it.  A token is a copy of the line, a
place that it has been read up to, and the places of the parameters behind it, which the first
question for them finds with `strtok_r`.  A line with more than `AT_TOKEN_PARAM_MAX` of them is
never marked as taken apart, and each question takes it apart again, which changes nothing any more
(`Fresh.tokenize`).

The answers are those that the line asks for, `runs`, as long as the copy is the line: its length is
an `int` (`answersRuns_iff`).
-/

namespace Tr50

open Machinery

/-! ## Tokens -/

def atTokenParamMax : ℕ := 32

/-- `AT_TOKEN_DELIMITERS` -/
def atTokenDelimiters (c : UInt8) : Bool := c = 44 ∨ c = 13 ∨ c = 10

/-- `_AT_TOKEN`, its pointers as offsets into `at_string`, which has NULs where it is cut. -/
structure AtToken where
  atString : List UInt8
  atStringLen : ℤ
  walker : ℕ
  params : List (Option ℕ)
  paramsCount : ℕ
  isTokenized : Bool
deriving DecidableEq, Repr

/-- `at_token_create`: what it returns, and the token if it makes one. -/
def atTokenCreate (malloc : ℕ → Bool) (atString : List UInt8) : Option (ℤ × Option AtToken) :=
  let len := toInt32 (strlen atString)
  if len = 0 then some (errTr50Parms, none)
  else if ¬ malloc 0 then some (errTr50Parms, none)
  -- the clone of `-1` bytes is given none, and is written as many as a `size_t` goes
  else if len = -1 ∧ malloc 1 then none
  else if len < 0 ∨ ¬ malloc 1 then some (errTr50Malloc, none)
  else
    some (0, some
      ⟨(cut atString).take len.toNat, len, 0, .replicate atTokenParamMax none, 0, false⟩)

/-- `at_token_continue_with`, of a string constant. -/
def atTokenContinueWith (token : AtToken) (str : List UInt8) : Bool × AtToken :=
  if str.isPrefixOf (cut (token.atString.drop token.walker)) then
    (true, { token with walker := token.walker + str.length })
  else (false, token)

/-- `at_token_has_ended` -/
def atTokenHasEnded (token : AtToken) : Bool := token.atStringLen = token.walker

/-- The loop of `_at_token_parse_parameters`, `strtok_r` going on at `s`; `none` where a parameter
is stored outside `params`. -/
def atTokenParseLoop (token : AtToken) (s : ℕ) : Option AtToken :=
  let r := strtok atTokenDelimiters token.atString s
  match r.token with
  | none => some { token with atString := r.str, isTokenized := true }
  | some ptr =>
    -- `ERR_AT_TOKEN_PARAM_MAX`, which no caller looks at
    if token.paramsCount ≥ atTokenParamMax then some { token with atString := r.str }
    else if token.paramsCount < token.params.length then
      atTokenParseLoop
        { token with
          atString := r.str
          params := token.params.set token.paramsCount (some ptr)
          paramsCount := token.paramsCount + 1 }
        r.reent
    else none
termination_by atTokenParamMax - token.paramsCount

/-- `_at_token_parse_parameters` -/
def atTokenParseParameters (token : AtToken) : Option AtToken :=
  atTokenParseLoop token token.walker

/-- What `at_token_parameter` and `at_token_count` begin with. -/
def AtToken.tokenize (token : AtToken) : Option AtToken :=
  if token.isTokenized then some token else atTokenParseParameters token

/-- `at_token_parameter`, of an index that is not negative, as its callers' are: NULL, or the
parameter as it reads now. -/
def atTokenParameter (token : AtToken) (index : ℕ) : Option (Option (List UInt8) × AtToken) :=
  token.tokenize.bind fun token =>
    if index ≥ token.paramsCount then some (none, token)
    else
      token.params[index]?.map fun ptr =>
        (ptr.map fun ptr => cut (token.atString.drop ptr), token)

/-- `at_token_count` -/
def atTokenCount (token : AtToken) : Option (ℕ × AtToken) :=
  token.tokenize.map fun token => (token.paramsCount, token)

/-- The parameter, as a handler gets it. -/
def AtToken.parameter (token : AtToken) (index : ℕ) : Option (List UInt8) :=
  (atTokenParameter token index).bind Prod.fst

/-- …and their number. -/
def AtToken.count (token : AtToken) : ℕ := ((atTokenCount token).map Prod.fst).getD 0

/-! ## Questions -/

inductive AtQuestion
  | count
  | parameter (index : ℕ)
deriving DecidableEq, Repr

inductive AtReading
  | count (count : ℕ)
  | parameter (param : Option (List UInt8))
deriving DecidableEq, Repr

/-- What a list of parameters answers. -/
def AtQuestion.answer (params : List (List UInt8)) : AtQuestion → AtReading
  | .count => .count params.length
  | .parameter index => .parameter params[index]?

namespace AtToken

/-- The prefixes are tried one after the other. -/
def continueWith (token : AtToken) (strs : List (List UInt8)) : AtToken :=
  strs.foldl (fun token str => (atTokenContinueWith token str).2) token

def ask (token : AtToken) : AtQuestion → Option (AtReading × AtToken)
  | .count => (atTokenCount token).map fun p => (.count p.1, p.2)
  | .parameter index => (atTokenParameter token index).map fun p => (.parameter p.1, p.2)

/-- The answers to the questions, one after the other. -/
def askAll : AtToken → List AtQuestion → Option (List AtReading)
  | _, [] => some []
  | token, question :: questions =>
    (token.ask question).bind fun p => (p.2.askAll questions).map (p.1 :: ·)

end AtToken

/-- The line as far as its length goes, which is an `int`. -/
def atTokenLine (line : List UInt8) : List UInt8 := (cut line).take (toInt32 (strlen line)).toNat

/-- What is left of a line behind the prefixes that it begins with. -/
def restOf (line : List UInt8) (strs : List (List UInt8)) : List UInt8 :=
  strs.foldl (fun rest str => if str.isPrefixOf rest then rest.drop str.length else rest) line

/-- The parameters that there are to find. -/
def atParams (rest : List UInt8) : List (List UInt8) :=
  (runs atTokenDelimiters rest).take atTokenParamMax

/-! ## What a token answers -/

namespace AtToken

variable {token : AtToken} {s : ℕ} {texts params : List (List UInt8)}

/-- The token answers from a list of parameters, and stays as it is. -/
structure Answers (token : AtToken) (params : List (List UInt8)) : Prop where
  count : token.paramsCount = params.length
  params : ∀ i : ℕ, ∀ text ∈ params[i]?, ∃ ptr, token.params[i]? = some (some ptr)
    ∧ cut (token.atString.drop ptr) = text
  stays : token.tokenize = some token

/-- The parameters found so far: each stands at its place in front of `s`. -/
structure Holds (token : AtToken) (s : ℕ) (texts : List (List UInt8)) : Prop where
  length : token.params.length = atTokenParamMax
  count : token.paramsCount = texts.length
  placed : ∀ i : ℕ, ∀ text ∈ texts[i]?, 0 ∉ text ∧ ∃ ptr, token.params[i]? = some (some ptr)
    ∧ Placed token.atString s ptr text
  begun : texts = [] ∧ s = token.walker ∨ Begun atTokenDelimiters token.atString s token.walker

theorem Holds.answers (h : Holds token s texts) (hstays : token.tokenize = some token) :
    Answers token texts := by
  refine ⟨h.count, fun i text htext => ?_, hstays⟩
  obtain ⟨h0, ptr, hptr, hplaced⟩ := h.placed i text htext
  exact ⟨ptr, hptr, hplaced.read h0⟩

/-- A full token has been read on: what has been found is still there, and it is taken apart again
to no effect. -/
theorem Holds.answers_full (h : Holds token s texts)
    (hfull : atTokenParamMax ≤ token.paramsCount) :
    Answers { token with atString := (strtok atTokenDelimiters token.atString s).str } texts := by
  have hbegun : Begun atTokenDelimiters token.atString s token.walker := by
    rcases h.begun with ⟨rfl, -⟩ | hbegun
    · rw [h.count] at hfull
      exact absurd hfull (by decide)
    · exact hbegun
  have hread : Holds { token with atString := (strtok atTokenDelimiters token.atString s).str }
      (strtok atTokenDelimiters token.atString s).reent texts := by
    refine ⟨h.length, h.count, fun i text htext => ?_, Or.inr hbegun.strtok⟩
    obtain ⟨h0, ptr, hptr, hplaced⟩ := h.placed i text htext
    exact ⟨h0, ptr, hptr, hplaced.strtok atTokenDelimiters⟩
  refine hread.answers ?_
  unfold tokenize
  split_ifs
  · rfl
  · obtain ⟨hstr, ptr, htoken⟩ := hbegun.strtok.again
    rw [atTokenParseParameters, atTokenParseLoop]
    simp only [htoken, hstr, ge_iff_le, if_pos hfull]

/-- One more has been found. -/
theorem Holds.next {gap run : List UInt8} (h : Holds token s texts)
    (hlt : token.paramsCount < token.params.length)
    (hplaced : Placed (strtok atTokenDelimiters token.atString s).str
      (strtok atTokenDelimiters token.atString s).reent s (gap ++ run))
    (h0 : 0 ∉ gap ++ run) (hgap : ∀ c ∈ gap, atTokenDelimiters c)
    (hrun : ∀ c ∈ run, atTokenDelimiters c = false) (hne : run ≠ []) :
    Holds
      { token with
        atString := (strtok atTokenDelimiters token.atString s).str
        params := token.params.set token.paramsCount (some (s + gap.length))
        paramsCount := token.paramsCount + 1 }
      (strtok atTokenDelimiters token.atString s).reent (texts ++ [run]) := by
  refine ⟨List.length_set.trans h.length, ?_, fun i text htext => ?_, Or.inr ?_⟩
  · rw [h.count, List.length_append, List.length_singleton]
  · rcases lt_or_ge i texts.length with hi | hi
    · rw [List.getElem?_append_left hi] at htext
      obtain ⟨h0, ptr, hptr, hplaced⟩ := h.placed i text htext
      refine ⟨h0, ptr, ?_, hplaced.strtok atTokenDelimiters⟩
      rw [List.getElem?_set_ne (by rw [h.count]; omega), hptr]
    · rw [List.getElem?_append_right hi] at htext
      obtain ⟨hi', rfl⟩ := List.getElem?_eq_some_iff.mp htext
      rw [List.length_singleton] at hi'
      obtain rfl : i = token.paramsCount := by
        rw [h.count]
        omega
      simp only [List.getElem_singleton]
      exact ⟨fun hmem => h0 (List.mem_append_right gap hmem), _,
        List.getElem?_set_self hlt, hplaced.drop⟩
  · rcases h.begun with ⟨-, rfl⟩ | hbegun
    · exact ⟨gap, run, hplaced, h0, hgap, hrun, hne⟩
    · exact hbegun.strtok

/-- **The loop finds the runs that there is room for.** -/
theorem Holds.parseLoop {token : AtToken} {s : ℕ} {texts : List (List UInt8)}
    (h : Holds token s texts) (hs : s ≤ token.atString.length)
    (h0 : 0 ∉ token.atString.drop s) (hle : texts.length ≤ atTokenParamMax) :
    ∃ token', atTokenParseLoop token s = some token'
      ∧ Answers token' ((texts ++ runs atTokenDelimiters (token.atString.drop s)).take
        atTokenParamMax) := by
  rw [atTokenParseLoop]
  rcases exists_run atTokenDelimiters (token.atString.drop s) with
    hseps | ⟨gap, run, rest, hrest, hgap, hrun, hne, hsep⟩
  · obtain ⟨hnone, hstr⟩ := strtok_nothing h0 hseps
    simp only [hnone, hstr]
    refine ⟨_, rfl, ?_⟩
    rw [runs_eq_nil_iff.mpr hseps, List.append_nil, List.take_of_length_le hle]
    have hdone : Holds { token with isTokenized := true } s texts :=
      ⟨h.length, h.count, h.placed, h.begun⟩
    exact hdone.answers rfl
  · obtain ⟨htoken, hplaced, hbehind, hreent⟩ := strtok_finds hs h0 hrest hgap hrun hne hsep
    have hruns := runs_of_run hgap hrun hne hsep
    have hmem : 0 ∉ gap ++ (run ++ rest) := hrest ▸ h0
    simp only [htoken, hrest, hruns]
    by_cases hfull : atTokenParamMax ≤ token.paramsCount
    · rw [if_pos hfull]
      have hlen : texts.length = atTokenParamMax := le_antisymm hle (h.count ▸ hfull)
      refine ⟨_, rfl, ?_⟩
      rw [List.take_left' hlen]
      exact h.answers_full hfull
    · have hlt : token.paramsCount < token.params.length := by
        rw [h.length]
        exact not_le.mp hfull
      rw [if_neg hfull, if_pos hlt]
      have hnext := h.next hlt hplaced (fun hc => hmem (by simp_all)) hgap hrun hne
      rw [List.append_cons, ← hbehind]
      refine hnext.parseLoop hreent ?_ ?_
      · simp only [hbehind]
        exact fun hc => hmem (by simp [List.mem_of_mem_tail hc])
      · rw [List.length_append, List.length_singleton, ← h.count]
        exact not_le.mp hfull
termination_by atTokenParamMax - texts.length
decreasing_by
  rw [List.length_append, List.length_singleton]
  have := h.count
  omega

/-! ## Asking -/

theorem Answers.ask (h : Answers token params) (question : AtQuestion) :
    token.ask question = some (question.answer params, token) := by
  cases question with
  | count => rw [AtToken.ask, atTokenCount, h.stays, Option.map_some, Option.map_some, h.count,
      AtQuestion.answer]
  | parameter index =>
    rw [AtToken.ask, atTokenParameter, h.stays, Option.bind_some, AtQuestion.answer]
    split_ifs with hindex
    · rw [h.count] at hindex
      rw [Option.map_some, List.getElem?_eq_none hindex]
    · rw [h.count, not_le] at hindex
      obtain ⟨ptr, hptr, hread⟩ := h.params index params[index] (List.getElem?_eq_getElem hindex)
      rw [hptr, List.getElem?_eq_getElem hindex, Option.map_some, Option.map_some, Option.map_some,
        hread]

theorem Answers.askAll (h : Answers token params) (questions : List AtQuestion) :
    token.askAll questions = some (questions.map (·.answer params)) := by
  induction questions with
  | nil => rfl
  | cons question questions ih =>
    rw [AtToken.askAll, h.ask question, Option.bind_some, ih, Option.map_some, List.map_cons]

/-- A token that has not been asked, and what is left of its line. -/
structure Fresh (token : AtToken) (rest : List UInt8) : Prop where
  rest : token.atString.drop token.walker = rest
  noNul : 0 ∉ token.atString
  length : token.atStringLen = token.atString.length
  walker : token.walker ≤ token.atString.length
  params : token.params = .replicate atTokenParamMax none
  count : token.paramsCount = 0
  isTokenized : token.isTokenized = false

variable {rest : List UInt8}

theorem fresh_of_notMem {clone : List UInt8} (h0 : 0 ∉ clone) {len : ℤ}
    (hlen : len = clone.length) :
    Fresh ⟨clone, len, 0, .replicate atTokenParamMax none, 0, false⟩ clone :=
  ⟨List.drop_zero, h0, hlen, Nat.zero_le _, rfl, rfl, rfl⟩

theorem Fresh.noNul_rest (h : Fresh token rest) : 0 ∉ rest := by
  rw [← h.rest]
  exact fun h0 => h.noNul (List.mem_of_mem_drop h0)

theorem Fresh.cut_drop (h : Fresh token rest) :
    cut (token.atString.drop token.walker) = rest := by
  rw [h.rest]
  exact List.takeWhile_eq_self_iff.mpr fun c hc => decide_eq_true fun h0 => h.noNul_rest (h0 ▸ hc)

theorem Fresh.atTokenContinueWith (h : Fresh token rest) (str : List UInt8) :
    Fresh (atTokenContinueWith token str).2
      (if str.isPrefixOf rest then rest.drop str.length else rest) := by
  unfold Tr50.atTokenContinueWith
  rw [h.cut_drop]
  split_ifs with hprefix
  · have hlen := (List.isPrefixOf_iff_prefix.mp hprefix).length_le
    rw [← h.rest, List.length_drop] at hlen
    refine ⟨?_, h.noNul, h.length, ?_, h.params, h.count, h.isTokenized⟩
    · rw [← List.drop_drop, h.rest]
    · have := h.walker
      simp only
      omega
  · exact h

theorem Fresh.continueWith (h : Fresh token rest) (strs : List (List UInt8)) :
    Fresh (token.continueWith strs) (restOf rest strs) := by
  induction strs generalizing token rest with
  | nil => exact h
  | cons str strs ih => exact ih (h.atTokenContinueWith str)

/-- **The first question takes the token apart.** -/
theorem Fresh.tokenize (h : Fresh token rest) :
    ∃ token', token.tokenize = some token' ∧ Answers token' (atParams rest) := by
  have hholds : Holds token token.walker [] :=
    ⟨by rw [h.params, List.length_replicate], h.count, fun i text htext => by simp at htext,
      Or.inl ⟨rfl, rfl⟩⟩
  obtain ⟨token', hparse, hanswers⟩ := hholds.parseLoop h.walker
    (h.rest ▸ h.noNul_rest) (Nat.zero_le _)
  rw [h.rest, List.nil_append] at hanswers
  refine ⟨token', ?_, hanswers⟩
  rw [AtToken.tokenize, if_neg (by simp [h.isTokenized])]
  exact hparse

/-- …and the answers are the same from then on. -/
theorem Fresh.askAll (h : Fresh token rest) (questions : List AtQuestion) :
    token.askAll questions = some (questions.map (·.answer (atParams rest))) := by
  obtain ⟨token', htokenize, hanswers⟩ := h.tokenize
  cases questions with
  | nil => rfl
  | cons question questions =>
    have hask : token.ask question = token'.ask question := by
      cases question with
      | count => rw [AtToken.ask, AtToken.ask, atTokenCount, atTokenCount, htokenize,
          hanswers.stays]
      | parameter index => rw [AtToken.ask, AtToken.ask, atTokenParameter, atTokenParameter,
          htokenize, hanswers.stays]
    have hall := hanswers.askAll (question :: questions)
    rwa [AtToken.askAll, ← hask, ← AtToken.askAll] at hall

/-- What a handler gets, whenever it asks. -/
theorem Fresh.parameter (h : Fresh token rest) (index : ℕ) :
    token.parameter index = (atParams rest)[index]? := by
  obtain ⟨token', htokenize, hanswers⟩ := h.tokenize
  have hask := hanswers.ask (.parameter index)
  rw [AtToken.ask, AtQuestion.answer, atTokenParameter, hanswers.stays] at hask
  obtain ⟨p, hp, heq⟩ := Option.map_eq_some_iff.mp hask
  have hfst : p.1 = (atParams rest)[index]? := by simpa using congrArg Prod.fst heq
  rw [AtToken.parameter, atTokenParameter, htokenize, hp, Option.bind_some, hfst]

theorem Fresh.count_eq (h : Fresh token rest) : token.count = (atParams rest).length := by
  obtain ⟨token', htokenize, hanswers⟩ := h.tokenize
  rw [AtToken.count, atTokenCount, htokenize, Option.map_some, Option.map_some, Option.getD_some,
    hanswers.count]

end AtToken

/-! ## Lines -/

section Line

variable {malloc : ℕ → Bool} {line : List UInt8}

theorem atTokenLine_begins (line : List UInt8) : atTokenLine line <+: cut line :=
  List.take_prefix _ _

theorem length_atTokenLine (h : 0 < toInt32 (strlen line)) :
    toInt32 (strlen line) = (atTokenLine line).length := by
  have hle := toInt32_le (Int.natCast_nonneg (strlen line))
  have hcut : (cut line).length = strlen line := rfl
  rw [atTokenLine, List.length_take, hcut]
  omega

/-- **A token is made** of the line as far as its length goes. -/
theorem atTokenCreate_eq (h0 : malloc 0) (h1 : malloc 1) (hlen : 0 < toInt32 (strlen line)) :
    ∃ token, atTokenCreate malloc line = some (0, some token)
      ∧ token.Fresh (atTokenLine line) ∧ token.atString = atTokenLine line := by
  have hnoNul : 0 ∉ atTokenLine line := fun h => by
    have hmem : 0 ∈ cut line := (atTokenLine_begins line).subset h
    have hne := List.mem_takeWhile_imp hmem
    simp at hne
  refine ⟨⟨atTokenLine line, toInt32 (strlen line), 0, .replicate atTokenParamMax none, 0, false⟩,
    ?_, AtToken.fresh_of_notMem hnoNul (length_atTokenLine hlen), by dsimp only⟩
  simp only [atTokenCreate]
  rw [if_neg hlen.ne', if_neg (by simp [h0]), if_neg (by omega),
    if_neg (not_or.mpr ⟨hlen.not_gt, by simp [h1]⟩), atTokenLine]

/-- …and of no other. -/
theorem of_atTokenCreate {ret : ℤ} {token : AtToken}
    (h : atTokenCreate malloc line = some (ret, some token)) :
    malloc 0 ∧ malloc 1 ∧ 0 < toInt32 (strlen line) ∧ ret = 0 := by
  simp only [atTokenCreate] at h
  by_cases hzero : toInt32 (strlen line) = 0
  · simp [hzero] at h
  by_cases h0 : malloc 0
  · rw [if_neg hzero, if_neg (not_not.mpr h0)] at h
    split_ifs at h with hall hrefused
    · simp at h
    · obtain ⟨hlen, h1⟩ := not_or.mp hrefused
      refine ⟨h0, not_not.mp h1, by omega, ?_⟩
      exact (Prod.mk.inj (Option.some.inj h)).1.symm
  · simp [hzero, h0] at h

theorem fresh_of_atTokenCreate {ret : ℤ} {token : AtToken}
    (h : atTokenCreate malloc line = some (ret, some token)) : token.Fresh (atTokenLine line) := by
  obtain ⟨h0, h1, hlen, -⟩ := of_atTokenCreate h
  obtain ⟨token', hcreate, hfresh, -⟩ := atTokenCreate_eq h0 h1 hlen
  rw [hcreate] at h
  exact Option.some.inj (Prod.mk.inj (Option.some.inj h)).2 ▸ hfresh

/-- Whatever is asked, the answers are the parameters behind the prefixes that have been taken off
the line. -/
def AtToken.AnswersRuns (token : AtToken) (line : List UInt8) : Prop :=
  ∀ strs questions, (token.continueWith strs).askAll questions
    = some (questions.map (·.answer (atParams (restOf (cut line) strs))))

variable {token : AtToken}

/-- What is left is the end of the line. -/
theorem restOf_suffix (line : List UInt8) (strs : List (List UInt8)) :
    restOf line strs <:+ line := by
  induction strs generalizing line with
  | nil => exact List.suffix_rfl
  | cons str strs ih =>
    refine (ih _).trans ?_
    beta_reduce
    split_ifs
    · exact List.drop_suffix _ _
    · exact List.suffix_rfl

theorem restOf_singleton_append (str rest : List UInt8) : restOf (str ++ rest) [str] = rest := by
  rw [restOf, List.foldl_cons, List.foldl_nil,
    if_pos (List.isPrefixOf_iff_prefix.mpr (List.prefix_append str rest)), List.drop_left]

theorem restOf_of_length_lt {line str : List UInt8} (h : line.length < str.length) :
    restOf line [str] = line := by
  rw [restOf, List.foldl_cons, List.foldl_nil, if_neg fun hprefix =>
    absurd (List.isPrefixOf_iff_prefix.mp hprefix).length_le h.not_ge]

theorem atParams_eq_nil_iff {rest : List UInt8} :
    atParams rest = [] ↔ ∀ c ∈ rest, atTokenDelimiters c := by
  rw [← runs_eq_nil_iff, atParams, List.take_eq_nil_iff]
  exact or_iff_right (by decide)

/-- A line of separators has no parameters, wherever it is cut. -/
theorem atParams_restOf_eq_nil {line front : List UInt8} (hfront : front <:+: line)
    (h : ∀ c ∈ line, atTokenDelimiters c) (strs : List (List UInt8)) :
    atParams (restOf front strs) = [] :=
  atParams_eq_nil_iff.mpr fun c hc =>
    h c (hfront.subset ((restOf_suffix front strs).subset hc))

/-- Behind the copy of a long line there is more. -/
theorem exists_behind_atTokenLine (hlong : 2 ^ 31 ≤ strlen line) :
    ∃ c behind, atTokenLine line ++ c :: behind = cut line := by
  have hlt := @Int.bmod_lt (strlen line) (2 ^ 32) (by norm_num)
  rw [← toInt32] at hlt
  obtain ⟨behind, hbehind⟩ := atTokenLine_begins line
  have hshort : (atTokenLine line).length < strlen line := by
    rw [atTokenLine, List.length_take]
    omega
  have hlength : (atTokenLine line).length + behind.length = strlen line := by
    rw [← List.length_append, hbehind]
    rfl
  obtain ⟨c, behind, rfl⟩ : ∃ c behind', behind = c :: behind' :=
    List.exists_cons_of_length_pos (by omega)
  exact ⟨c, behind, hbehind⟩

/-- Where what is missing cannot be told by the counts, there is nothing to find. -/
theorem delimiters_of_length_eq {front behind : List UInt8} {c : UInt8}
    (hcount : ∀ strs, (atParams (restOf (front ++ c :: behind) strs)).length
      = (atParams (restOf front strs)).length) :
    ∀ d ∈ front ++ c :: behind, atTokenDelimiters d := by
  -- behind the copy the token has come to its end
  have hall := hcount [front]
  have hend := restOf_singleton_append front []
  rw [List.append_nil] at hend
  rw [restOf_singleton_append, hend] at hall
  have hbehind : ∀ d ∈ c :: behind, atTokenDelimiters d :=
    atParams_eq_nil_iff.mp (List.length_eq_zero_iff.mp hall)
  -- with one character more it stays where it is
  have hmore := hcount [front ++ [c]]
  rw [List.append_cons, restOf_singleton_append, restOf_of_length_lt (by simp),
    atParams_eq_nil_iff.mpr fun d hd => hbehind d (List.mem_cons_of_mem c hd)] at hmore
  have hfront : ∀ d ∈ front, atTokenDelimiters d :=
    atParams_eq_nil_iff.mp (List.length_eq_zero_iff.mp hmore.symm)
  exact fun d hd => (List.mem_append.mp hd).elim (hfront d) (hbehind d)

/-- A token that answers for a long line answers that there is nothing. -/
theorem AtToken.AnswersRuns.delimiters (hanswers : token.AnswersRuns line)
    (hfresh : token.Fresh (atTokenLine line)) (hlong : 2 ^ 31 ≤ strlen line) :
    ∀ c ∈ cut line, atTokenDelimiters c := by
  obtain ⟨c, behind, hbehind⟩ := exists_behind_atTokenLine hlong
  rw [← hbehind]
  refine delimiters_of_length_eq fun strs => ?_
  have hask := (hfresh.continueWith strs).askAll [.count]
  rw [hanswers] at hask
  rw [hbehind]
  simpa [AtQuestion.answer] using hask

/-- **The answers are those that the line asks for** as long as the line is shorter than `2^31`
characters, and behind that where it has no parameters at all: the copy is as long as its length is
as an `int`. -/
theorem answersRuns_iff {ret : ℤ} (h : atTokenCreate malloc line = some (ret, some token)) :
    token.AnswersRuns line
      ↔ strlen line < 2 ^ 31 ∨ runs atTokenDelimiters (cut line) = [] := by
  have hfresh := fresh_of_atTokenCreate h
  have hanswers : ∀ strs questions, (token.continueWith strs).askAll questions
      = some (questions.map (·.answer (atParams (restOf (atTokenLine line) strs)))) :=
    fun strs questions => (hfresh.continueWith strs).askAll questions
  constructor
  · intro hruns
    rw [or_iff_not_imp_left, runs_eq_nil_iff]
    exact fun hlong => hruns.delimiters hfresh (not_lt.mp hlong)
  · rintro (hshort | hseps) strs questions
    · have hline : atTokenLine line = cut line := by
        rw [atTokenLine, toInt32_of_lt hshort, Int.toNat_natCast]
        exact List.take_length
      rw [hanswers, hline]
    · rw [runs_eq_nil_iff] at hseps
      rw [hanswers, atParams_restOf_eq_nil (atTokenLine_begins line).isInfix hseps,
        atParams_restOf_eq_nil List.infix_rfl hseps]

/-- `A,,B` and a CR. -/
theorem answersRuns_iff_two : ∃ token : AtToken,
    atTokenCreate (fun _ => true) [65, 44, 44, 66, 13] = some (0, some token)
      ∧ token.AnswersRuns [65, 44, 44, 66, 13] := by
  obtain ⟨token, hcreate, -⟩ :=
    @atTokenCreate_eq (fun _ => true) [65, 44, 44, 66, 13] rfl rfl (by decide)
  exact ⟨token, hcreate, (answersRuns_iff hcreate).mpr (Or.inl (by decide))⟩

/-- `A` and `B`, with `n` commas in between. -/
def commaLine (n : ℕ) : List UInt8 := 65 :: (List.replicate n 44 ++ [66])

theorem strlen_commaLine (n : ℕ) : strlen (commaLine n) = n + 2 := by
  have hnoNul : 0 ∉ commaLine n := by
    simp [commaLine, List.mem_replicate]
  rw [strlen_of_notMem hnoNul, commaLine, List.length_cons, List.length_append,
    List.length_replicate, List.length_singleton]

theorem mem_commaLine (n : ℕ) : (65 : UInt8) ∈ cut (commaLine n) := by
  rw [commaLine, cut, List.takeWhile_cons_of_pos (by decide)]
  exact List.mem_cons_self

theorem not_answersRuns_commaLine {n : ℕ} (hlen : 0 < toInt32 (n + 2 : ℕ))
    (hlong : 2 ^ 31 ≤ n + 2) : ∃ token,
      atTokenCreate (fun _ => true) (commaLine n) = some (0, some token)
        ∧ ¬ token.AnswersRuns (commaLine n) := by
  rw [← strlen_commaLine n] at hlen hlong
  obtain ⟨token, hcreate, hfresh, -⟩ := @atTokenCreate_eq (fun _ => true) _ rfl rfl hlen
  exact ⟨token, hcreate, fun h =>
    absurd (h.delimiters hfresh hlong 65 (mem_commaLine n)) (by decide)⟩

/-- **A line that is cut with its length**, which is `1` as an `int`: the token has the first
character only. -/
theorem not_answersRuns_long : ∃ token : AtToken,
    atTokenCreate (fun _ => true) (commaLine (2 ^ 32 - 1)) = some (0, some token)
      ∧ ¬ token.AnswersRuns (commaLine (2 ^ 32 - 1)) :=
  not_answersRuns_commaLine (by decide) (by decide)

end Line

end Tr50
