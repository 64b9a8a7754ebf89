import Tr50.At.Cmd

/-!
# At/Main — processing an AT command

`tr50_at_process`: a token is made of the line, the handler is looked up by what the line begins
with, and its output is handed out, as data if it is that of `AT#DWRCV` or `AT#DWRCVR`.

Two things are not looked at: whether there is a token, and, in four handlers, whether there is a
first parameter; and `AT#DWSTATUS` waits for a ping (`atLineProcessed_iff`).  The result of
`AT#DWSEND` is reported for half of its types (`dwsendReports_iff`).
-/

namespace Tr50

open Machinery

/-! ## Commands -/

inductive AtHandler
  | dwconnGet
  | dwconnSet
  | dwsendrSet
  | dwsendSet
  | dwlrcvGet
  | dwrcvrSet
  | dwrcvSet
  | dwstatusGet
deriving DecidableEq, Repr

/-- What follows the name of a command: a string, or nothing. -/
inductive AtEnding
  | str (text : List UInt8)
  | ended

/-- The commands, in the order in which they are tried. -/
def atCommands : List (List UInt8 × List (AtEnding × AtHandler)) :=
  [(cstring "AT#DWCONN".toList, [(.str [ch '?'], .dwconnGet), (.str [ch '='], .dwconnSet)]),
    (cstring "AT#DWSENDR".toList, [(.str [ch '='], .dwsendrSet)]),
    (cstring "AT#DWSEND".toList, [(.str [ch '='], .dwsendSet)]),
    (cstring "AT#DWLRCV".toList, [(.ended, .dwlrcvGet)]),
    (cstring "AT#DWRCVR".toList, [(.str [ch '='], .dwrcvrSet)]),
    (cstring "AT#DWRCV".toList, [(.str [ch '='], .dwrcvSet)]),
    (cstring "AT#DWSTATUS".toList, [(.ended, .dwstatusGet)])]

section Select

variable {σ τ : Type} (continueWith : σ → List UInt8 → Option σ) (hasEnded : σ → Bool)

def AtEnding.select (s : σ) : AtEnding → Option σ
  | .str text => continueWith s text
  | .ended => if hasEnded s then some s else none

/-- The handler that is found: that of the first command that the line begins with, if one of its
endings follows. -/
def atSelect (s : σ) : Option (AtHandler × σ) :=
  (atCommands.findSome? fun command => (continueWith s command.1).map fun s =>
    command.2.findSome? fun ending =>
      (ending.1.select continueWith hasEnded s).map fun s => (ending.2, s)).join

end Select

/-- By the token. -/
def AtToken.select (token : AtToken) : Option (AtHandler × AtToken) :=
  atSelect (fun token str =>
    match atTokenContinueWith token str with
    | (true, token) => some token
    | (false, _) => none) atTokenHasEnded token

/-- By the text of the line. -/
def lineSelect (line : List UInt8) : Option (AtHandler × List UInt8) :=
  atSelect (fun rest str => if str.isPrefixOf rest then some (rest.drop str.length) else none)
    List.isEmpty line

/-! ## Processing -/

/-- What `tr50_at_process` returns and hands out, and the storage it leaves. -/
structure AtProcessed where
  ret : ℤ
  output : List UInt8
  isData : Bool
  table : AtTable
  called : Option AtCalled

/-- Output that is no data. -/
def AtReturn.processed (table : AtTable) (r : AtReturn) : AtProcessed :=
  ⟨r.ret, r.output, false, table, r.called⟩

/-- Data; that there is none is bad. -/
def atReceived (p : List UInt8 × AtTable) : AtProcessed :=
  ⟨if p.1 = [] then -1 else 0, p.1, true, p.2, none⟩

def AtHandler.run (library : AtLibrary) (table : AtTable) (token : AtToken) :
    AtHandler → Option AtProcessed
  | .dwconnGet => some ((tr50AtCmdDwconnGet library).processed table)
  | .dwconnSet => (tr50AtCmdDwconnSet library token).map (·.processed table)
  | .dwsendrSet => some ((tr50AtCmdDwsendrSet library token).processed table)
  | .dwsendSet => (tr50AtCmdDwsendSet library token).map (·.processed table)
  | .dwlrcvGet => some ⟨0, tr50AtStorageList table, false, table, none⟩
  | .dwrcvrSet => (token.parameter 0).map fun msgIdStr =>
      atReceived (tr50AtCmdDwrcvrSet table msgIdStr)
  | .dwrcvSet => (token.parameter 0).map fun msgIdStr =>
      atReceived (tr50AtCmdDwrcvSet table msgIdStr)
  | .dwstatusGet => (tr50AtCmdDwstatusGet library).map (·.processed table)

/-- `tr50_at_process`; `none` where a token is used that has not been made, or a parameter that is
not there, and where the wait for a ping does not end. -/
def tr50AtProcess (malloc : ℕ → Bool) (library : AtLibrary) (table : AtTable)
    (atInput : List UInt8) : Option AtProcessed := do
  let created ← atTokenCreate malloc atInput
  -- what `at_token_create` returns is not looked at
  let token ← created.2
  match token.select with
  | none => return ⟨errAtCmdNotSupported, [], false, table, none⟩
  | some (handler, token) => handler.run library table token

/-! ## The handler that a line selects -/

section Select

variable {α β γ : Type} {r : β → γ → Prop}

theorem rel_map {β' γ' : Type} {r' : β' → γ' → Prop} {a : Option β} {b : Option γ}
    {f : β → β'} {g : γ → γ'} (h : Option.Rel r a b) (hfg : ∀ x y, r x y → r' (f x) (g y)) :
    Option.Rel r' (a.map f) (b.map g) := by
  cases h with
  | some h => exact .some (hfg _ _ h)
  | none => exact .none

theorem rel_join {a : Option (Option β)} {b : Option (Option γ)}
    (h : Option.Rel (Option.Rel r) a b) : Option.Rel r a.join b.join := by
  cases h with
  | some h => exact h
  | none => exact .none

/-- What is found first on both sides. -/
theorem rel_findSome? {f : α → Option β} {g : α → Option γ} :
    ∀ {l : List α}, (∀ a ∈ l, Option.Rel r (f a) (g a)) →
      Option.Rel r (l.findSome? f) (l.findSome? g)
  | [], _ => .none
  | a :: l, h => by
    have ha := h a List.mem_cons_self
    have hl := rel_findSome? fun a' ha' => h a' (List.mem_cons_of_mem a ha')
    rw [List.findSome?_cons, List.findSome?_cons]
    generalize f a = b at ha ⊢
    generalize g a = c at ha ⊢
    cases ha with
    | some hbc => exact .some hbc
    | none => exact hl

variable {σ τ : Type} {R : σ → τ → Prop} {continueWith : σ → List UInt8 → Option σ}
  {continueWith' : τ → List UInt8 → Option τ} {hasEnded : σ → Bool} {hasEnded' : τ → Bool}

theorem rel_ending
    (hcontinue : ∀ s t str, R s t → Option.Rel R (continueWith s str) (continueWith' t str))
    (hended : ∀ s t, R s t → hasEnded s = hasEnded' t) (ending : AtEnding) {s : σ} {t : τ}
    (h : R s t) :
    Option.Rel R (ending.select continueWith hasEnded s)
      (ending.select continueWith' hasEnded' t) := by
  cases ending with
  | str text => exact hcontinue s t text h
  | ended =>
    simp only [AtEnding.select, hended s t h]
    split_ifs
    · exact .some h
    · exact .none

/-- **What can be told apart by its beginning selects the same handler.** -/
theorem rel_atSelect
    (hcontinue : ∀ s t str, R s t → Option.Rel R (continueWith s str) (continueWith' t str))
    (hended : ∀ s t, R s t → hasEnded s = hasEnded' t) {s : σ} {t : τ} (h : R s t) :
    Option.Rel (fun p q => p.1 = q.1 ∧ R p.2 q.2) (atSelect continueWith hasEnded s)
      (atSelect continueWith' hasEnded' t) := by
  have hselected : ∀ (endings : List (AtEnding × AtHandler)) (s : σ) (t : τ), R s t →
      Option.Rel (fun (p : AtHandler × σ) (q : AtHandler × τ) => p.1 = q.1 ∧ R p.2 q.2)
        (endings.findSome? fun ending =>
          (ending.1.select continueWith hasEnded s).map fun s => (ending.2, s))
        (endings.findSome? fun ending =>
          (ending.1.select continueWith' hasEnded' t).map fun t => (ending.2, t)) :=
    fun endings s t hst => rel_findSome? fun ending _ =>
      rel_map (rel_ending hcontinue hended ending.1 hst) fun _ _ hst => ⟨rfl, hst⟩
  exact rel_join (rel_findSome? fun command _ =>
    rel_map (hcontinue s t command.1 h) (hselected command.2))

end Select

/-- The token selects the handler that the line does. -/
theorem AtToken.Fresh.select {token : AtToken} {rest : List UInt8} (h : token.Fresh rest) :
    Option.Rel (fun (p : AtHandler × AtToken) (q : AtHandler × List UInt8) =>
      p.1 = q.1 ∧ p.2.Fresh q.2 ∧ p.2.atString = token.atString) token.select
      (lineSelect rest) := by
  refine rel_atSelect (R := fun (t : AtToken) (rest : List UInt8) =>
    t.Fresh rest ∧ t.atString = token.atString) (fun t rest str hR => ?_) (fun t rest hR => ?_)
    ⟨h, rfl⟩
  · have hnext := hR.1.atTokenContinueWith str
    unfold Tr50.atTokenContinueWith at hnext ⊢
    rw [hR.1.cut_drop] at hnext ⊢
    split_ifs at hnext ⊢
    · exact .some ⟨hnext, hR.2⟩
    · exact .none
  · have hrest := congrArg List.length hR.1.rest
    have hwalker := hR.1.walker
    rw [List.length_drop] at hrest
    rw [atTokenHasEnded, hR.1.length, Bool.eq_iff_iff, decide_eq_true_eq, List.isEmpty_iff,
      ← List.length_eq_zero_iff]
    omega

/-! ## Parameters that are not there -/

/-- The handlers that read a parameter without asking whether there is one. -/
def AtHandler.Reads (handler : AtHandler) : Prop :=
  handler ∈ [.dwconnSet, .dwsendSet, .dwrcvrSet, .dwrcvSet]

/-- What a handler relies on: a first parameter, or that the wait for its ping ends. -/
def AtHandler.Served (library : AtLibrary) (rest : List UInt8) (handler : AtHandler) : Prop :=
  (handler.Reads → atParams rest ≠ []) ∧ (handler = .dwstatusGet → library.Pings)

/-- What the line has to have for its handler. -/
def AtHandler.Complete (line rest : List UInt8) : AtHandler → Prop
  | .dwconnSet | .dwrcvrSet | .dwrcvSet => atParams rest ≠ []
  | .dwsendrSet => ch ',' ∈ line
  | .dwsendSet => DwsendComplete (atParams rest)
  | .dwconnGet | .dwlrcvGet | .dwstatusGet => True

/-- The line is processed to the end, with an error if it does not have what its handler needs. -/
def AtLineProcessed (malloc : ℕ → Bool) (library : AtLibrary) (table : AtTable)
    (line : List UInt8) : Prop :=
  ∃ p, tr50AtProcess malloc library table line = some p
    ∧ ∀ handler rest, lineSelect (atTokenLine line) = some (handler, rest) →
      ¬ handler.Complete (atTokenLine line) rest → p.ret ≠ 0

/-- A library that is connected, whose calls all have one result. -/
def AtLibrary.answering (result : ℤ × ℤ) : AtLibrary :=
  ⟨fun _ => result, 1, 2, 0, 10, some ⟨0, 0, 20⟩, 0, 0, 0, 0⟩

section Process

variable {malloc : ℕ → Bool} (library : AtLibrary) (table : AtTable) {token : AtToken}
  {line rest : List UInt8} {handler : AtHandler}

/-- Without a comma there is nothing to send. -/
theorem dwsendrSet_missing (hcomma : ch ',' ∉ token.atString) :
    (tr50AtCmdDwsendrSet library token).ret ≠ 0 := by
  have hcut : ch ',' ∉ cut token.atString := fun hmem =>
    hcomma ((List.takeWhile_prefix _).subset hmem)
  simp only [tr50AtCmdDwsendrSet]
  rw [if_neg (by decide), if_pos (Or.inr hcut)]
  exact show errAtTokenCmdNotMatch ≠ 0 by decide

/-- **A handler comes to its end**, with an error if something is missing, unless it reads a
parameter where there is none, or waits without end. -/
theorem AtToken.Fresh.run (h : token.Fresh rest) (hserved : handler.Served library rest) :
    ∃ p, handler.run library table token = some p
      ∧ (¬ handler.Complete token.atString rest → p.ret ≠ 0) := by
  obtain ⟨hreads, hpings⟩ := hserved
  have hfirst : atParams rest ≠ [] → ∃ param, token.parameter 0 = some param := fun hne =>
    ⟨_, h.parameter_of_lt (List.length_pos_iff.mpr hne)⟩
  cases handler with
  | dwconnGet | dwlrcvGet => exact ⟨_, rfl, fun hnot => absurd trivial hnot⟩
  | dwstatusGet =>
    obtain ⟨r, hret⟩ :=
      Option.isSome_iff_exists.mp (tr50AtCmdDwstatusGet_isSome.mpr (hpings rfl))
    exact ⟨r.processed table, by rw [AtHandler.run, hret, Option.map_some],
      fun hnot => absurd trivial hnot⟩
  | dwsendrSet => exact ⟨_, rfl, fun hcomma => dwsendrSet_missing library hcomma⟩
  | dwsendSet =>
    obtain ⟨r, hret, herr⟩ := h.dwsendSet_returns library
      (hreads (by simp [AtHandler.Reads]))
    exact ⟨r.processed table, by rw [AtHandler.run, hret, Option.map_some], herr⟩
  | dwconnSet =>
    have hne := hreads (by simp [AtHandler.Reads])
    obtain ⟨state, hstate⟩ := hfirst hne
    refine ⟨_, by rw [AtHandler.run, tr50AtCmdDwconnSet, hstate, Option.map_some, Option.map_some],
      fun hnot => absurd hne hnot⟩
  | dwrcvrSet | dwrcvSet =>
    have hne := hreads (by simp [AtHandler.Reads])
    obtain ⟨msgIdStr, hmsgIdStr⟩ := hfirst hne
    exact ⟨_, by rw [AtHandler.run, hmsgIdStr, Option.map_some], fun hnot => absurd hne hnot⟩

/-- …which it does. -/
theorem AtToken.Fresh.run_served (h : token.Fresh rest) {p : AtProcessed}
    (hrun : handler.run library table token = some p) : handler.Served library rest := by
  refine ⟨fun hreads hparams => ?_, fun hstatus => ?_⟩
  · have hfirst : token.parameter 0 = none := h.parameter_of_ge (by simp [hparams])
    simp only [AtHandler.Reads, List.mem_cons, List.not_mem_nil, or_false] at hreads
    rcases hreads with rfl | rfl | rfl | rfl
    · simp [AtHandler.run, tr50AtCmdDwconnSet, hfirst] at hrun
    · simp [AtHandler.run, h.dwsendSet_eq_none library hparams] at hrun
    · simp [AtHandler.run, hfirst] at hrun
    · simp [AtHandler.run, hfirst] at hrun
  · subst hstatus
    obtain ⟨r, hret, -⟩ := Option.map_eq_some_iff.mp hrun
    exact tr50AtCmdDwstatusGet_isSome.mp (by rw [hret]; rfl)

/-- A line that selects nothing is not supported… -/
theorem tr50AtProcess_of_none (h0 : malloc 0) (h1 : malloc 1) (hlen : 0 < toInt32 (strlen line))
    (hselect : lineSelect (atTokenLine line) = none) :
    tr50AtProcess malloc library table line
      = some ⟨errAtCmdNotSupported, [], false, table, none⟩ := by
  obtain ⟨token, hcreate, hfresh, -⟩ := atTokenCreate_eq h0 h1 hlen
  have hrel := hfresh.select
  rw [hselect] at hrel
  have hnone : token.select = none := by
    cases hsome : token.select with
    | none => rfl
    | some p =>
      rw [hsome] at hrel
      cases hrel
  simp only [tr50AtProcess, hcreate, Option.bind_eq_bind, Option.bind_some, hnone]
  rfl

/-- …and any other is given to its handler, with what is left of it. -/
theorem tr50AtProcess_of_some (h0 : malloc 0) (h1 : malloc 1) (hlen : 0 < toInt32 (strlen line))
    (hselect : lineSelect (atTokenLine line) = some (handler, rest)) :
    ∃ token : AtToken, token.Fresh rest ∧ token.atString = atTokenLine line
      ∧ tr50AtProcess malloc library table line = handler.run library table token := by
  obtain ⟨token, hcreate, hfresh, hline⟩ := atTokenCreate_eq h0 h1 hlen
  have hrel := hfresh.select
  rw [hselect] at hrel
  obtain ⟨⟨handler', token'⟩, hsome⟩ : ∃ p, token.select = some p := by
    cases hnone : token.select with
    | none =>
      rw [hnone] at hrel
      cases hrel
    | some p => exact ⟨p, rfl⟩
  rw [hsome, Option.rel_some_some] at hrel
  obtain ⟨rfl, hfresh', hline'⟩ := hrel
  refine ⟨token', hfresh', hline'.trans hline, ?_⟩
  simp only [tr50AtProcess, hcreate, Option.bind_eq_bind, Option.bind_some, hsome]

variable {library table}

theorem AtLineProcessed.made (h : AtLineProcessed malloc library table line) :
    malloc 0 ∧ malloc 1 ∧ 0 < toInt32 (strlen line) := by
  obtain ⟨p, hp, -⟩ := h
  simp only [tr50AtProcess, Option.bind_eq_bind, Option.bind_eq_some_iff] at hp
  obtain ⟨⟨ret, token⟩, hcreate, token, rfl, -⟩ := hp
  obtain ⟨h0, h1, hlen, -⟩ := of_atTokenCreate hcreate
  exact ⟨h0, h1, hlen⟩

theorem AtLineProcessed.served (h : AtLineProcessed malloc library table line)
    (hselect : lineSelect (atTokenLine line) = some (handler, rest)) :
    handler.Served library rest := by
  obtain ⟨h0, h1, hlen⟩ := h.made
  obtain ⟨token, hfresh, -, hrun⟩ := tr50AtProcess_of_some library table h0 h1 hlen hselect
  obtain ⟨p, hp, -⟩ := h
  exact hfresh.run_served library table (hrun.symm.trans hp)

/-- **A line is processed to its end** if a token is made of it and it does not select a handler
that reads a parameter where there is none, or that waits for a ping without end. -/
theorem atLineProcessed_iff : AtLineProcessed malloc library table line
    ↔ (malloc 0 ∧ malloc 1 ∧ 0 < toInt32 (strlen line))
      ∧ ∀ handler rest, lineSelect (atTokenLine line) = some (handler, rest) →
        handler.Served library rest := by
  refine ⟨fun h => ⟨h.made, fun _ _ => h.served⟩, ?_⟩
  rintro ⟨⟨h0, h1, hlen⟩, hserved⟩
  cases hselect : lineSelect (atTokenLine line) with
  | none =>
    refine ⟨_, tr50AtProcess_of_none library table h0 h1 hlen hselect, fun handler rest hsome => ?_⟩
    rw [hselect] at hsome
    simp at hsome
  | some found =>
    obtain ⟨handler, rest⟩ := found
    obtain ⟨token, hfresh, hline, hrun⟩ :=
      tr50AtProcess_of_some library table h0 h1 hlen hselect
    obtain ⟨p, hp, herr⟩ := hfresh.run library table (hserved handler rest hselect)
    refine ⟨p, hrun.trans hp, fun handler' rest' hsame hnot => herr ?_⟩
    rw [hselect] at hsame
    obtain ⟨rfl, rfl⟩ := Prod.mk.inj (Option.some.inj hsame)
    rw [hline]
    exact hnot

/-- Of the empty line no token is made, and `AT#DWSEND=` has no type. -/
theorem not_atLineProcessed :
    ¬ AtLineProcessed (fun _ => true) (.answering (0, 0)) .init []
      ∧ ¬ AtLineProcessed (fun _ => true) (.answering (0, 0)) .init
        (cstring "AT#DWSEND=".toList) := by
  refine ⟨fun h => absurd h.made.2.2 (by decide), fun h => ?_⟩
  have hselect : lineSelect (atTokenLine (cstring "AT#DWSEND=".toList))
      = some (.dwsendSet, []) := by decide
  exact (h.served hselect).1 (by simp [AtHandler.Reads]) rfl

/-! ## The result of `AT#DWSEND` -/

/-- **The result is reported** if the type is `0` or `1`: of an update and of an acknowledgement
`0` is taken for a failure. -/
theorem dwsendReports_iff (h0 : malloc 0) (h1 : malloc 1) (hlen : 0 < toInt32 (strlen line))
    (hselect : lineSelect (atTokenLine line) = some (.dwsendSet, rest)) {type : List UInt8}
    {others : List (List UInt8)} (hparams : atParams rest = type :: others)
    (htype : deref type ∈ [ch '0', ch '1', ch '2', ch '3'])
    (hcomplete : DwsendComplete (atParams rest)) :
    ∃ r : AtReturn, tr50AtProcess malloc library table line = some (r.processed table)
      ∧ (r.Reports library ↔ deref type = ch '0' ∨ deref type = ch '1') := by
  obtain ⟨token, hfresh, -, hrun⟩ := tr50AtProcess_of_some library table h0 h1 hlen hselect
  obtain ⟨r, hret, hreports⟩ := hfresh.dwsendSet_reports library hparams htype hcomplete
  exact ⟨r, by rw [hrun, AtHandler.run, hret, Option.map_some], hreports⟩

end Process

/-- A command that is refused. -/
theorem dwsendReports_iff_command :
    ∃ r : AtReturn,
      tr50AtProcess (fun _ => true) (.answering (errTr50Parms, 0)) .init
        (cstring "AT#DWSEND=0,alarm.publish,key,a".toList) = some (r.processed .init)
      ∧ (r.Reports (.answering (errTr50Parms, 0)) ↔ ch '0' = ch '0' ∨ ch '0' = ch '1') := by
  have hselect : lineSelect (atTokenLine (cstring "AT#DWSEND=0,alarm.publish,key,a".toList))
      = some (.dwsendSet, cstring "0,alarm.publish,key,a".toList) := by decide
  have hparams : atParams (cstring "0,alarm.publish,key,a".toList)
      = [ch '0'] :: ["alarm.publish", "key", "a"].map fun param => cstring param.toList := by decide
  exact dwsendReports_iff rfl rfl (by decide) hselect hparams (by decide) (by decide)

/-- **An update that has succeeded** is printed as a failure, `Failed: 0`. -/
theorem not_dwsend_reports : ∃ r : AtReturn,
    tr50AtProcess (fun _ => true) (.answering (0, 0)) .init
        (cstring "AT#DWSEND=2,id,message".toList) = some (r.processed .init)
      ∧ ¬ r.Reports (.answering (0, 0)) := by
  have hselect : lineSelect (atTokenLine (cstring "AT#DWSEND=2,id,message".toList))
      = some (.dwsendSet, cstring "2,id,message".toList) := by decide
  have hparams : atParams (cstring "2,id,message".toList)
      = [ch '2'] :: ["id", "message"].map fun param => cstring param.toList := by decide
  obtain ⟨token, hfresh, -, hrun⟩ :=
    @tr50AtProcess_of_some (fun _ => true) (.answering (0, 0)) .init _ _ _ rfl rfl (by decide)
      hselect
  obtain ⟨r, hret, hreports⟩ := hfresh.dwsendSet_reports (.answering (0, 0)) hparams (by decide)
    (by decide)
  refine ⟨r, by rw [hrun, AtHandler.run, hret, Option.map_some], fun h => ?_⟩
  exact absurd (hreports.mp h) (by decide)

end Tr50
