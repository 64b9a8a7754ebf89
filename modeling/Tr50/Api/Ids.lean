import Tr50.Machinery.Window
import Tr50.Api.Requests

/-!
# Api/Ids — the ids of the requests that wait

Ids go from `1` to `65536` and round again, and nothing compares a new one with those of the
requests that wait.  `NumberedClient` counts the ids that have been taken, and remembers of each
request the number of its own: two requests that wait have the same id exactly when their numbers
are a multiple of `65536` apart (`seqIds_nodup`), as they are when one waits while the ids go round
(`not_seqIds_nodup_wrap`).  Ids that are taken one after the other are distinct for one round, and
never `0` (`takings_nodup`).
-/

namespace Tr50

open Machinery

variable {κ : Type}

/-! ## Numbers -/

/-- The client, the number of ids taken so far, and each handle's own. -/
structure NumberedClient (κ : Type) where
  client : Tr50Client κ
  taken : ℕ
  number : ℕ → ℕ

/-- The id that is the `n`-th one taken; before the first `seq_id` is `0`. -/
def tr50Id : ℕ → ℤ
  | 0 => 0
  | n + 1 => (n % 65536 : ℕ) + 1

theorem tr50ApiMsgIdNext_tr50Id (n : ℕ) : tr50ApiMsgIdNext (tr50Id n) = tr50Id (n + 1) := by
  cases n with
  | zero => rfl
  | succ n =>
    simp only [tr50ApiMsgIdNext, tr50Id, tr50MaxId]
    split_ifs <;> omega

theorem tr50Id_succ_ne (n : ℕ) : tr50Id (n + 1) ≠ tr50Id n := by
  cases n with
  | zero => decide
  | succ n =>
    simp only [tr50Id]
    omega

/-- Ids are distinct where no two numbers are a multiple of `65536` apart. -/
theorem tr50Id_eq_iff {n m : ℕ} (hn : 0 < n) (hm : 0 < m) :
    tr50Id n = tr50Id m ↔ (n : ℤ) % 65536 = (m : ℤ) % 65536 := by
  obtain ⟨n, rfl⟩ := Nat.exists_eq_succ_of_ne_zero hn.ne'
  obtain ⟨m, rfl⟩ := Nat.exists_eq_succ_of_ne_zero hm.ne'
  simp only [tr50Id, Nat.succ_eq_add_one]
  omega

namespace NumberedClient

variable {inflate : List UInt8 → Option (List UInt8)} {s t : NumberedClient κ} {a : Action κ}

def init : NumberedClient κ := ⟨Tr50Client.init, 0, fun _ => 0⟩

/-- The client has become `client`; a new `seq_id` is one more that has been taken, for the request
that has entered with it, if one has. -/
def count (s : NumberedClient κ) (client : Tr50Client κ) : NumberedClient κ :=
  if client.seqId = s.client.seqId then { s with client }
  else ⟨client, s.taken + 1, Function.update s.number s.client.nextHandle (s.taken + 1)⟩

def step (inflate : List UInt8 → Option (List UInt8)) (s : NumberedClient κ) (a : Action κ) :
    Option (NumberedClient κ) := (s.client.step inflate a).map s.count

/-- Every run of the client is counted. -/
theorem exists_numbered {c : Tr50Client κ}
    (h : Reach (Tr50Client.step inflate) (fun _ _ => True) Tr50Client.init c) :
    ∃ s : NumberedClient κ, Reach (step inflate) (fun _ _ => True) init s ∧ s.client = c := by
  refine h.simulation (R := fun (c : Tr50Client κ) (s : NumberedClient κ) => s.client = c) rfl
    fun c s a c' heq _ hstep => ?_
  subst heq
  refine Or.inr ⟨a, s.count c', trivial, ?_, ?_⟩
  · rw [step, hstep, Option.map_some]
  · unfold count
    split_ifs <;> rfl

end NumberedClient

/-! ## Ids -/

namespace Tr50Client

variable {s t : Tr50Client κ}

/-- The ids of the request that is being submitted, and of those that wait. -/
def ids (s : Tr50Client κ) : List (ℤ × ℕ) :=
  s.call.toList.map (fun call => idOf call.message) ++ s.pending.list.map idOf

/-- The ids there are after a step: those of before, or one that has just been taken. -/
structure Takes (s t : Tr50Client κ) : Prop where
  handles : s.nextHandle ≤ t.nextHandle
  ids : ∀ p ∈ t.ids, p ∈ s.ids ∨ p = (t.seqId, s.nextHandle)
    ∧ t.seqId = tr50ApiMsgIdNext s.seqId ∧ t.nextHandle = s.nextHandle + 1

theorem Takes.of_subset (hhandles : s.nextHandle ≤ t.nextHandle) (h : t.ids ⊆ s.ids) : Takes s t :=
  ⟨hhandles, fun _ hp => Or.inl (h hp)⟩

theorem mem_ids_pending {p : ℤ × ℕ} (h : p ∈ s.pending.list.map idOf) : p ∈ s.ids :=
  List.mem_append_right _ h

theorem mem_ids_call {call : ApiCall κ} (hcall : s.call = some call) :
    idOf call.message ∈ s.ids := by
  refine List.mem_append_left _ ?_
  rw [hcall]
  exact List.mem_singleton_self _

/-- A message that goes out of the list leaves the ids of the others. -/
theorem remove_subset (pending : Tr50Pending κ) (message : Tr50Message κ) :
    (tr50PendingLinklistRemove pending message).list.map idOf ⊆ pending.list.map idOf :=
  (List.eraseP_sublist.map _).subset

theorem Effect.takes {a : Action κ} (h : Effect s a t) : Takes s t := by
  cases h with
  | refuse message ret hcall hhandle hret =>
    exact .of_subset (Nat.le_succ _) fun p hp => mem_ids_pending hp
  | enter call hcall hhandle hid hstage hsweep =>
    refine ⟨Nat.le_succ _, fun p hp => ?_⟩
    rcases List.mem_append.mp hp with hp | hp
    · obtain rfl := List.mem_singleton.mp hp
      exact Or.inr ⟨Prod.ext rfl hhandle, hid, rfl⟩
    · exact Or.inl (mem_ids_pending hp)
  | leave call ret hcall hret => exact .of_subset le_rfl fun p hp => mem_ids_pending hp
  | goOn call stage hcall hstage =>
    refine .of_subset le_rfl fun p hp => ?_
    rcases List.mem_append.mp hp with hp | hp
    · obtain rfl := List.mem_singleton.mp hp
      have hmem := mem_ids_call hcall
      exact hmem
    · exact mem_ids_pending hp
  | add call now stage hcall hadd hstage =>
    refine .of_subset le_rfl fun p hp => ?_
    rcases List.mem_append.mp hp with hp | hp
    · obtain rfl := List.mem_singleton.mp hp
      have hmem := mem_ids_call hcall
      exact hmem
    · obtain ⟨m, hm, rfl⟩ := List.mem_map.mp hp
      rcases List.mem_append.mp hm with hm | hm
      · exact mem_ids_pending (List.mem_map_of_mem hm)
      · obtain rfl := List.mem_singleton.mp hm
        have hmem := mem_ids_call hcall
        exact hmem
  | takeBack call ret message hcall hstage hfree hmem hid =>
    exact .of_subset le_rfl fun p hp => mem_ids_pending (remove_subset _ _ hp)
  | expired call ret hcall hstage hid => exact .of_subset le_rfl fun p hp => mem_ids_pending hp
  | take message seqId data hdelivery hidle hmem hid =>
    exact .of_subset le_rfl (List.append_subset.mpr ⟨List.subset_append_left _ _,
      fun p hp => mem_ids_pending (remove_subset _ _ hp)⟩)
  | deliver d hdelivery => exact .of_subset le_rfl (List.Subset.refl _)
  | expire message sweep pending hscan hnext hmem hpending =>
    refine .of_subset le_rfl (List.append_subset.mpr ⟨List.subset_append_left _ _, fun p hp => ?_⟩)
    rw [hpending] at hp
    exact mem_ids_pending (remove_subset _ _ hp)
  | quiet seqId stopped isStopping sweep pending hnext hkeep hpending hids =>
    refine .of_subset le_rfl (List.append_subset.mpr ⟨List.subset_append_left _ _, fun p hp => ?_⟩)
    rw [hids] at hp
    exact mem_ids_pending hp

theorem receive_seqId {inflate : List UInt8 → Option (List UInt8)} {topic data : List UInt8}
    (h : s.receive inflate topic data = some t) : t.seqId = s.seqId := by
  unfold receive at h
  split at h
  · cases h
  split at h
  · split at h
    · split at h <;> obtain rfl := Option.some.inj h <;> rfl
    · cases h
  all_goals
    obtain rfl := Option.some.inj h
    rfl

/-- The id that a step takes which leaves the client so: that of a call that is let in, or of
`tr50_api_msg_id_next`. -/
def takenId (t : Tr50Client κ) : Action κ → Option ℤ
  | .api .. => t.call.map fun call => call.message.seqId
  | .msgIdNext => some t.seqId
  | _ => none

/-- A call in progress has its id. -/
theorem apiStep_taken {call : ApiCall κ} {stage : Stage} {a : Action κ}
    (h : s.apiStep call stage a = some t) : t.takenId a = none := by
  cases a with
  | api => cases stage <;> cases h
  | msgIdNext => cases stage <;> cases h
  | _ => rfl

/-- `seq_id` stays, or goes on to the next id, which is the one that is taken. -/
theorem step_taken {inflate : List UInt8 → Option (List UInt8)} {a : Action κ}
    (h : s.step inflate a = some t) :
    t.takenId a = none ∧ t.seqId = s.seqId
      ∨ t.takenId a = some t.seqId ∧ t.seqId = tr50ApiMsgIdNext s.seqId := by
  unfold step at h
  split at h
  · simp only [apiEnter] at h
    split_ifs at h <;> obtain rfl := Option.some.inj h
    · exact Or.inl ⟨rfl, rfl⟩
    · exact Or.inl ⟨rfl, rfl⟩
    · exact Or.inr ⟨rfl, rfl⟩
  · split_ifs at h
    obtain rfl := Option.some.inj h
    exact Or.inr ⟨rfl, rfl⟩
  · split_ifs at h
    obtain rfl := Option.some.inj h
    exact Or.inl ⟨rfl, rfl⟩
  · exact Or.inl ⟨rfl, receive_seqId h⟩
  · obtain ⟨d, -, rfl⟩ := Option.map_eq_some_iff.mp h
    exact Or.inl ⟨rfl, rfl⟩
  · split_ifs at h
    obtain rfl := Option.some.inj h
    exact Or.inl ⟨rfl, rfl⟩
  · exact Or.inl ⟨rfl, (visit_keeps h).seqId⟩
  · unfold callbackReturn at h
    split at h
    · split_ifs at h
      obtain rfl := Option.some.inj h
      exact Or.inl ⟨rfl, rfl⟩
    · cases h
  · split at h
    · cases h
    · exact Or.inl ⟨apiStep_taken h, (apiStep_keeps h).seqId⟩

theorem step_seqId {inflate : List UInt8 → Option (List UInt8)} {a : Action κ}
    (h : s.step inflate a = some t) :
    t.seqId = s.seqId ∨ t.seqId = tr50ApiMsgIdNext s.seqId :=
  (step_taken h).imp And.right And.right

end Tr50Client

namespace NumberedClient

variable {inflate : List UInt8 → Option (List UInt8)} {s t : NumberedClient κ} {a : Action κ}

/-- Each id is that of its number, and the numbers grow with the handles. -/
structure Counted (s : NumberedClient κ) : Prop where
  seqId : s.client.seqId = tr50Id s.taken
  below : ∀ p ∈ s.client.ids, p.2 < s.client.nextHandle
    ∧ p.1 = tr50Id (s.number p.2) ∧ 0 < s.number p.2 ∧ s.number p.2 ≤ s.taken
  mono : ∀ p ∈ s.client.ids, ∀ p' ∈ s.client.ids, p.2 < p'.2 → s.number p.2 < s.number p'.2

theorem counted_init : Counted (init : NumberedClient κ) :=
  ⟨rfl, fun _ hp => absurd hp List.not_mem_nil, fun _ hp => absurd hp List.not_mem_nil⟩

theorem Counted.step (hs : Counted s) (h : s.step inflate a = some t) : Counted t := by
  obtain ⟨client, hclient, rfl⟩ := Option.map_eq_some_iff.mp h
  obtain ⟨hhandles, hids⟩ := (Tr50Client.step_effect hclient).takes
  unfold count
  split_ifs with hsame
  · have hold : ∀ p ∈ client.ids, p ∈ s.client.ids := fun p hp =>
      (hids p hp).resolve_right fun hnew => by
        rw [hsame, hs.seqId, tr50ApiMsgIdNext_tr50Id] at hnew
        exact tr50Id_succ_ne _ hnew.2.1.symm
    exact ⟨hsame.trans hs.seqId,
      fun p hp => ⟨(hs.below p (hold p hp)).1.trans_le hhandles, (hs.below p (hold p hp)).2⟩,
      fun p hp p' hp' => hs.mono p (hold p hp) p' (hold p' hp')⟩
  · have hseq : client.seqId = tr50Id (s.taken + 1) := by
      rw [(Tr50Client.step_seqId hclient).resolve_left hsame, hs.seqId, tr50ApiMsgIdNext_tr50Id]
    -- the handles of before keep their numbers
    have hkeep : ∀ p ∈ s.client.ids,
        Function.update s.number s.client.nextHandle (s.taken + 1) p.2 = s.number p.2 :=
      fun p hp => Function.update_of_ne (hs.below p hp).1.ne _ _
    have hnew : Function.update s.number s.client.nextHandle (s.taken + 1) s.client.nextHandle
        = s.taken + 1 := Function.update_self ..
    refine ⟨hseq, fun p hp => ?_, fun p hp p' hp' hlt => ?_⟩
    · rcases hids p hp with hp | ⟨rfl, -, hnext⟩
      · obtain ⟨hhandle, hid, hpos, hle⟩ := hs.below p hp
        exact ⟨hhandle.trans_le hhandles, hid.trans (congrArg tr50Id (hkeep p hp).symm),
          hpos.trans_eq (hkeep p hp).symm, (hkeep p hp).trans_le (hle.trans (Nat.le_succ _))⟩
      · exact ⟨(Nat.lt_succ_self _).trans_eq hnext.symm, hseq.trans (congrArg tr50Id hnew.symm),
          (Nat.succ_pos _).trans_eq hnew.symm, hnew.le⟩
    · rcases hids p' hp' with hp' | ⟨rfl, -, -⟩
      · rcases hids p hp with hp | ⟨rfl, -, -⟩
        · exact (hkeep p hp).trans_lt ((hs.mono p hp p' hp' hlt).trans_eq (hkeep p' hp').symm)
        · exact absurd ((hs.below p' hp').1.trans hlt) (lt_irrefl _)
      · rcases hids p hp with hp | ⟨rfl, -, -⟩
        · exact (hkeep p hp).trans_lt ((Nat.lt_succ_of_le (hs.below p hp).2.2.2).trans_eq hnew.symm)
        · exact absurd hlt (lt_irrefl _)

/-- What a run keeps: the requests are accounted for, and the ids counted. -/
theorem counted_reach (h : Reach (step inflate) (fun _ _ => True) init s) :
    s.client.Inv ∧ Counted s := by
  refine h.invariant (I := fun s => s.client.Inv ∧ Counted s) ⟨Tr50Client.inv_init, counted_init⟩
    fun s a t hs _ hstep => ⟨?_, hs.2.step hstep⟩
  obtain ⟨client, hclient, rfl⟩ := Option.map_eq_some_iff.mp hstep
  have hinv := hs.1.step (Tr50Client.step_effect hclient)
  unfold count
  split_ifs <;> exact hinv

/-- The ids of the requests that wait. -/
def seqIds (s : NumberedClient κ) : List ℤ := s.client.pending.list.map (·.seqId)

/-- …and their numbers. -/
def numbers (s : NumberedClient κ) : List ℕ := s.client.pending.list.map fun m => s.number m.handle

theorem Counted.below_pending (hs : Counted s) {m : Tr50Message κ}
    (hm : m ∈ s.client.pending.list) :
    m.seqId = tr50Id (s.number m.handle) ∧ 0 < s.number m.handle ∧ s.number m.handle ≤ s.taken :=
  (hs.below _ (Tr50Client.mem_ids_pending (List.mem_map_of_mem hm))).2

theorem Counted.numbers_nodup (hs : Counted s) (hinv : s.client.Inv) : s.numbers.Nodup := by
  have hhandles : s.client.pending.list.Pairwise fun m m' => m.handle ≠ m'.handle :=
    List.pairwise_map.mp hinv.accounted.pending_nodup
  refine List.pairwise_map.mpr (hhandles.imp_of_mem fun {m m'} hm hm' hne => ?_)
  have hmem : ∀ {m : Tr50Message κ}, m ∈ s.client.pending.list → Tr50Client.idOf m ∈ s.client.ids :=
    fun hm => Tr50Client.mem_ids_pending (List.mem_map_of_mem hm)
  rcases lt_or_gt_of_ne hne with hlt | hlt
  · exact (hs.mono _ (hmem hm) _ (hmem hm') hlt).ne
  · exact (hs.mono _ (hmem hm') _ (hmem hm) hlt).ne'

/-- **The ids that wait are distinct unless two were taken a multiple of `65536` apart**; so they
are where each was taken among the last `65536`.  And where they are, a reply takes the request out
that has its id. -/
theorem seqIds_nodup (inflate : List UInt8 → Option (List UInt8)) {s : NumberedClient κ}
    (h : Reach (step inflate) (fun _ _ => True) init s) :
    (s.seqIds = s.numbers.map tr50Id ∧ s.numbers.Nodup)
    ∧ (s.seqIds.Nodup ↔ s.numbers.Pairwise fun n n' : ℕ => ¬ (65536 : ℤ) ∣ n - n')
    ∧ ((∀ n ∈ s.numbers, s.taken < n + 65536) → s.seqIds.Nodup)
    ∧ (s.seqIds.Nodup → ∀ m ∈ s.client.pending.list,
      (tr50PendingFindAndRemove s.client.pending m.seqId).1 = some m) := by
  obtain ⟨hinv, hs⟩ := counted_reach h
  have hids : s.seqIds = s.numbers.map tr50Id := by
    rw [seqIds, numbers, List.map_map]
    exact List.map_congr_left fun m hm => (hs.below_pending hm).1
  have hnumbers := hs.numbers_nodup hinv
  have hbounds : ∀ n ∈ s.numbers, 0 < n ∧ n ≤ s.taken := fun n hn => by
    obtain ⟨m, hm, rfl⟩ := List.mem_map.mp hn
    exact (hs.below_pending hm).2
  have hiff : s.seqIds.Nodup ↔ s.numbers.Pairwise fun n n' : ℕ => ¬ (65536 : ℤ) ∣ n - n' := by
    rw [hids, List.Nodup, List.pairwise_map]
    refine List.Pairwise.iff_of_mem fun {n n'} hn hn' => not_congr ?_
    rw [tr50Id_eq_iff (hbounds n hn).1 (hbounds n' hn').1, Int.emod_eq_emod_iff_emod_sub_eq_zero,
      ← Int.dvd_iff_emod_eq_zero]
  refine ⟨⟨hids, hnumbers⟩, hiff, fun hrecent => hiff.mpr ?_, fun hnodup m hm => ?_⟩
  · have hwindow : (s.numbers.map fun n : ℕ => (n : ℤ)).Pairwise fun n n' => ¬ 65536 ∣ n - n' := by
      refine pairwise_of_window (s.taken - 65535) (fun z hz => ?_)
        (hnumbers.map Nat.cast_injective)
      obtain ⟨n, hn, rfl⟩ := List.mem_map.mp hz
      have hlow := hrecent n hn
      have hhigh := (hbounds n hn).2
      omega
    exact List.pairwise_map.mp hwindow
  · rcases findAndRemove_cases s.client.pending m.seqId with ⟨-, hnone⟩ | ⟨m', hm', hid, hfind⟩
    · exact absurd rfl (hnone m hm)
    · rw [hfind, List.inj_on_of_nodup_map hnodup hm' hm hid]

/-- Two requests, submitted and sent. -/
def twoCalls : List (Action Unit) :=
  [.api false .obj 30000 (some ()), .payload 0, .add 0, .publish 0,
    .api false .raw 30000 none, .add 0, .compress 0, .publish 0]

/-- …as they are where two requests wait. -/
theorem seqIds_nodup_twoCalls :
    ∃ s : NumberedClient Unit, twoCalls.foldlM (step fun _ => none) init = some s
      ∧ s.seqIds = [1, 2] ∧ ∀ m ∈ s.client.pending.list,
        (tr50PendingFindAndRemove s.client.pending m.seqId).1 = some m := by
  have heval : (twoCalls.foldlM (step fun _ => none) init).map seqIds = some [1, 2] := by
    decide +kernel
  obtain ⟨s, hs, hids⟩ := Option.map_eq_some_iff.mp heval
  exact ⟨s, hs, hids, (seqIds_nodup _ (Reach.of_foldlM _ (by simp) hs)).2.2.2 (by simp [hids])⟩

end NumberedClient

/-! ## Ids that are taken one after the other -/

/-- `65536` ids on end are all there are. -/
theorem nodup_tr50Id (n : ℕ) {k : ℕ} (hk : k ≤ 65536) :
    ((List.range k).map fun i => tr50Id (n + i + 1)).Nodup := by
  refine List.Nodup.map_on (fun i hi j hj heq => ?_) List.nodup_range
  rw [List.mem_range] at hi hj
  rw [tr50Id_eq_iff (by omega) (by omega)] at heq
  omega

theorem tr50Id_succ_mem (n : ℕ) : 1 ≤ tr50Id (n + 1) ∧ tr50Id (n + 1) ≤ 65536 := by
  simp only [tr50Id]
  omega

namespace Tr50Client

variable {inflate : List UInt8 → Option (List UInt8)} {s t : Tr50Client κ} {ids : List ℤ}

/-- A run, with the ids that are taken in it. -/
inductive Takings (inflate : List UInt8 → Option (List UInt8)) (s : Tr50Client κ) :
    List ℤ → Tr50Client κ → Prop
  | refl : Takings inflate s [] s
  | tail {ids : List ℤ} {t u : Tr50Client κ} {a : Action κ} (h : Takings inflate s ids t)
      (hstep : t.step inflate a = some u) : Takings inflate s (ids ++ (u.takenId a).toList) u

/-- **What is taken is what comes next**, whoever takes it. -/
theorem Takings.ids_eq {n : ℕ} (hseq : s.seqId = tr50Id n) (h : Takings inflate s ids t) :
    ids = (List.range ids.length).map (fun i => tr50Id (n + i + 1))
      ∧ t.seqId = tr50Id (n + ids.length) := by
  induction h with
  | refl => exact ⟨rfl, hseq⟩
  | @tail ids t u a _ hstep ih =>
    obtain ⟨hids, ht⟩ := ih
    rcases step_taken hstep with ⟨hnone, hu⟩ | ⟨hsome, hu⟩
    · rw [hnone, Option.toList_none, List.append_nil]
      exact ⟨hids, hu.trans ht⟩
    · have hnext : u.seqId = tr50Id (n + ids.length + 1) := by
        rw [hu, ht, tr50ApiMsgIdNext_tr50Id]
      rw [hsome, Option.toList_some, List.length_append, List.length_singleton,
        List.range_succ, List.map_append, ← hids, List.map_singleton, hnext]
      exact ⟨rfl, rfl⟩

theorem Takings.reach (h : Takings inflate s ids t) :
    Reach (step inflate) (fun _ _ => True) s t := by
  induction h with
  | refl => exact .refl
  | tail _ hstep ih => exact ih.tail trivial hstep

/-- A run that evaluates. -/
theorem Takings.of_foldlM (trace : List (Action κ)) {ids₀ : List ℤ} {s₀ : Tr50Client κ}
    (h₀ : Takings inflate s₀ ids₀ s)
    (h : trace.foldlM (fun p a => (p.2.step inflate a).map fun u =>
      (p.1 ++ (u.takenId a).toList, u)) (ids₀, s) = some (ids, t)) :
    Takings inflate s₀ ids t := by
  induction trace generalizing ids₀ s with
  | nil =>
    obtain ⟨rfl, rfl⟩ := Prod.mk.inj (Option.some.inj h)
    exact h₀
  | cons a trace ih =>
    obtain ⟨p, hp, hrest⟩ := Option.bind_eq_some_iff.mp h
    obtain ⟨u, hu, rfl⟩ := Option.map_eq_some_iff.mp hp
    exact ih (h₀.tail hu) hrest

/-- A client that is reached has counted. -/
theorem exists_counted (h : Reach (step inflate) (fun _ _ => True) init s) :
    ∃ n, s.seqId = tr50Id n ∧ ∀ m ∈ s.pending.list, ∃ k, m.seqId = tr50Id (k + 1) := by
  obtain ⟨numbered, hreach, rfl⟩ := NumberedClient.exists_numbered h
  obtain ⟨-, hcounted⟩ := NumberedClient.counted_reach hreach
  refine ⟨numbered.taken, hcounted.seqId, fun m hm => ?_⟩
  obtain ⟨hid, hpos, -⟩ := hcounted.below_pending hm
  obtain ⟨k, hk⟩ := Nat.exists_eq_succ_of_ne_zero hpos.ne'
  exact ⟨k, hid.trans (congrArg tr50Id hk)⟩

/-- **Ids that are taken one after the other are distinct**, from any client that is reached and up
to `65536` of them; none is `0`, and no request that waits has the id `0`. -/
theorem takings_nodup (inflate : List UInt8 → Option (List UInt8)) {s t : Tr50Client κ}
    {ids : List ℤ} (h : Reach (step inflate) (fun _ _ => True) init s)
    (hrun : Takings inflate s ids t) :
    (0 ≤ s.seqId ∧ s.seqId ≤ 65536)
    ∧ (ids.length ≤ 65536 → ids.Nodup) ∧ (∀ id ∈ ids, 1 ≤ id ∧ id ≤ 65536)
    ∧ (∀ m ∈ t.pending.list, 1 ≤ m.seqId ∧ m.seqId ≤ 65536)
    ∧ (tr50PendingFindAndRemove t.pending 0).1 = none := by
  obtain ⟨n, hseq, -⟩ := exists_counted h
  obtain ⟨hids, -⟩ := hrun.ids_eq hseq
  obtain ⟨-, -, hpending⟩ := exists_counted (h.trans hrun.reach)
  have hwaiting : ∀ m ∈ t.pending.list, 1 ≤ m.seqId ∧ m.seqId ≤ 65536 := fun m hm => by
    obtain ⟨k, hk⟩ := hpending m hm
    rw [hk]
    exact tr50Id_succ_mem k
  refine ⟨?_, fun hlen => ?_, fun id hid => ?_, hwaiting, ?_⟩
  · cases n with
    | zero =>
      rw [hseq]
      decide
    | succ n =>
      have hmem := tr50Id_succ_mem n
      omega
  · rw [hids]
    exact nodup_tr50Id n hlen
  · rw [hids] at hid
    obtain ⟨i, -, rfl⟩ := List.mem_map.mp hid
    exact tr50Id_succ_mem (n + i)
  · rcases findAndRemove_cases t.pending 0 with ⟨hnone, -⟩ | ⟨m, hm, hid, -⟩
    · rw [hnone]
    · exact absurd (hwaiting m hm) (by omega)

/-- By `tr50_api_call_async`, `tr50_api_raw_async` and `tr50_api_msg_id_next`. -/
theorem takings_nodup_mixed : ∃ t : Tr50Client Unit,
    Takings (fun _ => none) init [1, 2, 3] t ∧ ([1, 2, 3] : List ℤ).Nodup
      ∧ (tr50PendingFindAndRemove t.pending 0).1 = none := by
  obtain ⟨t, hrun⟩ : ∃ t : Tr50Client Unit, Takings (fun _ => none) init [1, 2, 3] t :=
    ⟨_, Takings.of_foldlM (NumberedClient.twoCalls ++ [.msgIdNext]) .refl rfl⟩
  obtain ⟨-, hnodup, -, -, hfree⟩ := takings_nodup (fun _ => none) .refl hrun
  exact ⟨t, hrun, hnodup (by decide), hfree⟩

end Tr50Client

/-! ## Round the ids -/

namespace Tr50Client

/-- Ids can go by. -/
theorem msgIdNext_run {inflate : List UInt8 → Option (List UInt8)} {s : Tr50Client κ} {n : ℕ}
    (hcall : s.call = none) (hseq : s.seqId = tr50Id n) (k : ℕ) :
    Reach (step inflate) (fun _ _ => True) s { s with seqId := tr50Id (n + k) } := by
  induction k with
  | zero =>
    rw [Nat.add_zero, ← hseq]
    exact Reach.refl
  | succ k ih =>
    refine ih.tail (a := .msgIdNext) trivial ?_
    rw [step, if_neg (by simp [hcall]), ← add_assoc, ← tr50ApiMsgIdNext_tr50Id]

/-- A request, submitted and sent. -/
def oneCall : List (Action Unit) :=
  [.api false .obj 30000 none, .payload 0, .add 0, .publish 0]

/-- …and the client after it. -/
def waiting : Tr50Client Unit :=
  { init with
    seqId := 1
    nextHandle := 1
    pending := ⟨[⟨0, .obj, 1, 30000, none, 0, 30000⟩], 1, 0⟩
    history := ⟨[(0, none)], [], [], [⟨0, .obj, 0⟩]⟩ }

/-- **A request that waits while the ids go round meets its own.** -/
theorem not_seqIds_nodup_wrap :
    ¬ ∀ s : Tr50Client Unit, Reach (step fun _ => none) (fun _ _ => True) init s →
      (s.pending.list.map (·.seqId)).Nodup := by
  intro h
  have hone : oneCall.foldlM (step fun _ => none) init = some waiting := rfl
  have hround : Reach (step fun _ => none) (fun _ _ => True) waiting
      { waiting with seqId := tr50Id (1 + 65535) } := msgIdNext_run rfl rfl 65535
  obtain ⟨t, ht, hids⟩ : ∃ t, oneCall.foldlM (step fun _ => none)
      { waiting with seqId := tr50Id (1 + 65535) } = some t
      ∧ t.pending.list.map (·.seqId) = [1, 1] := ⟨_, rfl, rfl⟩
  have hnodup := h t (((Reach.of_foldlM _ (by simp) hone).trans hround).trans
    (Reach.of_foldlM _ (by simp) ht))
  rw [hids] at hnodup
  exact absurd hnodup (by decide)

end Tr50Client

end Tr50
