import Tr50.Api.Client

/-!
# Api/Payload — what the two submitters publish

`tr50_api_call_async` with `_tr50_build_payload`, and `tr50_api_raw_async`, each as one run with
nothing else going on: a run of the steps of `Api/Client` (`callAsync_run`, `rawAsync_run`) which
also says what is handed to `mqtt_async_publish`.

Both promise to publish a text as it is, under `api/<id>`, or deflated, under `apiz/<id>`.  They
compress from different lengths on, and a `_compress_deflate` that fails makes either call fail;
`agree_iff` says where neither shows.  A request whose call has failed is in the list no longer,
unless it was `tr50_api_raw_async` that could not compress it (`rawAsync_unlinks_iff`).
-/

namespace Tr50

open Machinery

variable {κ : Type}

/-! ## Payloads -/

/-- `TR50_MIN_COMPRESSION_LEN` -/
def tr50MinCompressionLen : ℕ := 128

/-- `TR50_TOPIC_API` and `TR50_TOPIC_COMPRESS_API`. -/
def tr50TopicApi : List UInt8 := cstring ['a', 'p', 'i']
def tr50TopicCompressApi : List UInt8 := cstring ['a', 'p', 'i', 'z']

/-- `topic_with_seq`; its 63 characters hold any `int`. -/
def topicWithSeq (topic : List UInt8) (seqId : ℤ) : List UInt8 :=
  topic ++ cstring ('/' :: (toString seqId).toList)

/-- What a call meets: `client->compress`, `_compress_deflate` with its return value, the clock, and
what `mqtt_async_publish` returns.  `tr50_api_call_async` reads `compress` for its topic and again
for its payload: it is not set in between.  And a text has an `int` for its length. -/
structure SubmitEnv where
  compress : Bool
  deflate : List UInt8 → ℤ × List UInt8
  now : ℤ
  publish : ℤ

/-- What `_tr50_build_payload` leaves behind; `deflated` is whether `_compress_deflate` has been
called. -/
structure Built where
  ret : ℤ
  topic : List UInt8
  data : List UInt8
  deflated : Bool
deriving DecidableEq, Repr

/-- `_tr50_build_payload` of a message whose `tr50_message_to_string` is `raw`, with the topic it is
given. -/
def tr50BuildPayload (env : SubmitEnv) (topic : List UInt8) (raw : Except ℤ (List UInt8)) : Built :=
  match raw with
  | .error ret => ⟨ret, topic, [], false⟩
  | .ok raw =>
    if env.compress then
      if raw.length ≤ tr50MinCompressionLen then ⟨0, tr50TopicApi, raw, false⟩
      else
        match env.deflate raw with
        | (ret, data) =>
          -- if compression failed, send without compression
          if ret ≠ 0 then ⟨ret, tr50TopicApi, raw, true⟩
          else ⟨ret, topic, data, true⟩
    else ⟨0, topic, raw, false⟩

/-- What is handed to `mqtt_async_publish`, and the list at that time. -/
structure ApiPublish (κ : Type) where
  topic : List UInt8
  data : List UInt8
  pending : Tr50Pending κ

/-- What a call leaves behind. -/
structure Submitted (κ : Type) where
  ret : ℤ
  client : Tr50Client κ
  deflated : Bool
  published : Option (ApiPublish κ)

/-! ## Submitters -/

namespace Tr50Client

variable (env : SubmitEnv) (s : Tr50Client κ)

/-- The request of the next call. -/
def nextMessage (messageType : MessageType) (timeout : ℤ) (callback : Option κ) : Tr50Message κ :=
  ⟨s.nextHandle, messageType, tr50ApiMsgIdNext s.seqId, timeout, callback, 0, 0⟩

/-- The client with the id taken, and the request in its list. -/
def taken : Tr50Client κ :=
  { s with nextHandle := s.nextHandle + 1, seqId := tr50ApiMsgIdNext s.seqId }

/-- `mqtt_async_publish`, and what follows if it fails. -/
def submit (message : Tr50Message κ) (topic data : List UInt8) (deflated : Bool) : Submitted κ :=
  let published := some ⟨topicWithSeq topic message.seqId, data, s.pending⟩
  if env.publish ≠ 0 then
    match tr50PendingFindAndRemove s.pending message.seqId with
    | (some _, pending) => ⟨env.publish, { s with pending := pending }, deflated, published⟩
    -- already expired, return okay
    | (none, _) => ⟨0, s, deflated, published⟩
  else ⟨0, s, deflated, published⟩

/-- The request goes into the list. -/
def addMessage (message : Tr50Message κ) : Tr50Client κ :=
  { s with pending := tr50PendingAdd s.pending message env.now }

/-- `tr50_api_call_async`. -/
def tr50ApiCallAsync (raw : Except ℤ (List UInt8)) (timeout : ℤ) (callback : Option κ) :
    Submitted κ :=
  let message := s.nextMessage .obj timeout callback
  if s.stopped then
    ⟨errTr50NotConnected, { s with nextHandle := s.nextHandle + 1 }, false, none⟩
  else if s.isStopping then
    ⟨errTr50Stopping, { s with nextHandle := s.nextHandle + 1 }, false, none⟩
  else
    let topic := if env.compress then tr50TopicCompressApi else tr50TopicApi
    let built := tr50BuildPayload env topic raw
    if built.ret ≠ 0 then ⟨built.ret, s.taken, built.deflated, none⟩
    else (s.taken.addMessage env message).submit env message built.topic built.data built.deflated

/-- `tr50_api_raw_async`. -/
def tr50ApiRawAsync (requestJson : List UInt8) (timeout : ℤ) (callback : Option κ) : Submitted κ :=
  let message := s.nextMessage .raw timeout callback
  if s.stopped then
    ⟨errTr50NotConnected, { s with nextHandle := s.nextHandle + 1 }, false, none⟩
  else if s.isStopping then
    ⟨errTr50Stopping, { s with nextHandle := s.nextHandle + 1 }, false, none⟩
  else
    let request := cut requestJson
    let s := s.taken.addMessage env message
    if env.compress ∧ request.length ≥ tr50MinCompressionLen then
      match env.deflate request with
      | (ret, out) =>
        -- the request is freed, and stays in the list
        if ret ≠ 0 then ⟨ret, s, true, none⟩
        else s.submit env message tr50TopicCompressApi out true
    else s.submit env message tr50TopicApi request false

/-! ## What is to hold -/

variable {env s} {text : List UInt8} {timeout timeout' : ℤ} {callback callback' : Option κ}

/-- A text is published as it is, or deflated, under the topic that says so, for the request that is
pending. -/
def PublishesWell (env : SubmitEnv) (s : Tr50Client κ) (text : List UInt8) (r : Submitted κ) :
    Prop :=
  ∀ p, r.published = some p → ∃ m ∈ p.pending.list, m.handle = s.nextHandle
    ∧ (p.topic = topicWithSeq tr50TopicApi m.seqId ∧ p.data = text
      ∨ p.topic = topicWithSeq tr50TopicCompressApi m.seqId ∧ (env.deflate text).1 = 0
        ∧ p.data = (env.deflate text).2)

/-- A text that cannot be deflated is published as it is. -/
def FallsBack (env : SubmitEnv) (text : List UInt8) (r : Submitted κ) : Prop :=
  r.deflated → (env.deflate text).1 ≠ 0 → ∃ p, r.published = some p ∧ p.data = text

/-- The two submitters agree on a text. -/
structure Agree (env : SubmitEnv) (s : Tr50Client κ) (text : List UInt8) (call raw : Submitted κ) :
    Prop where
  callPublishes : PublishesWell env s text call
  rawPublishes : PublishesWell env s text raw
  /-- Both compress it, or neither does. -/
  deflated : call.deflated = raw.deflated
  callFallsBack : FallsBack env text call
  rawFallsBack : FallsBack env text raw

/-! ## The two calls -/

theorem submit_published (message : Tr50Message κ) (topic data : List UInt8) (deflated : Bool) :
    (s.submit env message topic data deflated).published
      = some ⟨topicWithSeq topic message.seqId, data, s.pending⟩ := by
  unfold submit
  split_ifs
  · split <;> rfl
  · rfl

theorem submit_deflated (message : Tr50Message κ) (topic data : List UInt8) (deflated : Bool) :
    (s.submit env message topic data deflated).deflated = deflated := by
  unfold submit
  split_ifs
  · split <;> rfl
  · rfl

/-- The request that is published is the one that was added. -/
theorem publishesWell_submit {messageType : MessageType} {topic data : List UInt8} {deflated : Bool}
    (h : topic = tr50TopicApi ∧ data = text ∨ topic = tr50TopicCompressApi
      ∧ (env.deflate text).1 = 0 ∧ data = (env.deflate text).2) :
    PublishesWell env s text
      ((s.taken.addMessage env (s.nextMessage messageType timeout callback)).submit env
        (s.nextMessage messageType timeout callback) topic data deflated) := by
  intro p hp
  rw [submit_published] at hp
  obtain rfl := Option.some.inj hp
  refine ⟨_, List.mem_append_right _ (List.mem_singleton_self _), rfl, ?_⟩
  rcases h with ⟨rfl, rfl⟩ | ⟨rfl, hret, rfl⟩
  · exact Or.inl ⟨rfl, rfl⟩
  · exact Or.inr ⟨rfl, hret, rfl⟩

theorem publishesWell_none {r : Submitted κ} (h : r.published = none) :
    PublishesWell env s text r := by
  intro p hp
  rw [h] at hp
  cases hp

/-- What becomes of a call. -/
inductive Outcome (env : SubmitEnv) (s : Tr50Client κ) (text : List UInt8) (r : Submitted κ) : Prop
  /-- It is turned away. -/
  | away (h : s.stopped ∨ s.isStopping) (hdeflated : r.deflated = false)
      (hpublished : r.published = none)
  /-- It is published as it is… -/
  | plain (hup : ¬ (s.stopped ∨ s.isStopping)) (hdeflated : r.deflated = false)
      (hwell : PublishesWell env s text r)
  /-- …or deflated… -/
  | deflated (hup : ¬ (s.stopped ∨ s.isStopping)) (hcompress : env.compress)
      (hret : (env.deflate text).1 = 0) (hdeflated : r.deflated)
      (hwell : PublishesWell env s text r)
  /-- …or fails. -/
  | failed (hup : ¬ (s.stopped ∨ s.isStopping)) (hcompress : env.compress)
      (hret : (env.deflate text).1 ≠ 0) (hdeflated : r.deflated) (hpublished : r.published = none)

theorem Outcome.publishesWell {r : Submitted κ} (h : Outcome env s text r) :
    PublishesWell env s text r := by
  cases h with
  | away _ _ hpublished | failed _ _ _ _ hpublished => exact publishesWell_none hpublished
  | plain _ _ hwell | deflated _ _ _ _ hwell => exact hwell

/-- It falls back unless it fails. -/
theorem Outcome.fallsBack_iff {r : Submitted κ} (h : Outcome env s text r) :
    FallsBack env text r ↔ (r.deflated → (env.deflate text).1 = 0) := by
  cases h with
  | away _ hdeflated | plain _ hdeflated =>
    unfold FallsBack
    rw [hdeflated]
    exact iff_of_true (fun h => nomatch h) (fun h => nomatch h)
  | deflated _ _ hret => exact iff_of_true (fun _ h => absurd hret h) fun _ => hret
  | failed _ _ hret hdeflated hpublished =>
    refine iff_of_false (fun h => ?_) fun h => hret (h hdeflated)
    obtain ⟨p, hp, -⟩ := h hdeflated hret
    rw [hpublished] at hp
    cases hp

/-! ### Call by call -/

theorem callAsync_away (env : SubmitEnv) (raw : Except ℤ (List UInt8)) (timeout : ℤ)
    (callback : Option κ) (h : s.stopped ∨ s.isStopping) :
    (s.tr50ApiCallAsync env raw timeout callback).deflated = false
    ∧ (s.tr50ApiCallAsync env raw timeout callback).published = none := by
  unfold tr50ApiCallAsync
  by_cases hstopped : s.stopped
  · rw [if_pos hstopped]
    exact ⟨rfl, rfl⟩
  · rw [if_neg hstopped, if_pos (h.resolve_left hstopped)]
    exact ⟨rfl, rfl⟩

theorem rawAsync_away (env : SubmitEnv) (text : List UInt8) (timeout : ℤ) (callback : Option κ)
    (h : s.stopped ∨ s.isStopping) :
    (s.tr50ApiRawAsync env text timeout callback).deflated = false
    ∧ (s.tr50ApiRawAsync env text timeout callback).published = none := by
  unfold tr50ApiRawAsync
  by_cases hstopped : s.stopped
  · rw [if_pos hstopped]
    exact ⟨rfl, rfl⟩
  · rw [if_neg hstopped, if_pos (h.resolve_left hstopped)]
    exact ⟨rfl, rfl⟩

/-- A client that is up takes an id and builds the payload. -/
theorem callAsync_up (hup : ¬ (s.stopped ∨ s.isStopping)) {raw : Except ℤ (List UInt8)} :
    s.tr50ApiCallAsync env raw timeout callback
      = let message := s.nextMessage .obj timeout callback
        let built := tr50BuildPayload env
          (if env.compress then tr50TopicCompressApi else tr50TopicApi) raw
        if built.ret ≠ 0 then ⟨built.ret, s.taken, built.deflated, none⟩
        else (s.taken.addMessage env message).submit env message built.topic built.data
          built.deflated := by
  rw [not_or] at hup
  unfold tr50ApiCallAsync
  rw [if_neg hup.1, if_neg hup.2]

theorem rawAsync_up (hup : ¬ (s.stopped ∨ s.isStopping)) :
    s.tr50ApiRawAsync env text timeout callback
      = let message := s.nextMessage .raw timeout callback
        let added := s.taken.addMessage env message
        if env.compress ∧ (cut text).length ≥ tr50MinCompressionLen then
          if (env.deflate (cut text)).1 ≠ 0 then ⟨(env.deflate (cut text)).1, added, true, none⟩
          else added.submit env message tr50TopicCompressApi (env.deflate (cut text)).2 true
        else added.submit env message tr50TopicApi (cut text) false := by
  rw [not_or] at hup
  unfold tr50ApiRawAsync
  rw [if_neg hup.1, if_neg hup.2]

/-- `tr50_api_call_async` compresses what is longer than the bound… -/
theorem callAsync_outcome (env : SubmitEnv) (s : Tr50Client κ) (text : List UInt8) (timeout : ℤ)
    (callback : Option κ) :
    Outcome env s text (s.tr50ApiCallAsync env (.ok text) timeout callback)
    ∧ ((s.tr50ApiCallAsync env (.ok text) timeout callback).deflated ↔
      ¬ (s.stopped ∨ s.isStopping) ∧ env.compress ∧ tr50MinCompressionLen < text.length) := by
  by_cases hup : s.stopped ∨ s.isStopping
  · obtain ⟨hdeflated, hpublished⟩ := callAsync_away env (.ok text) timeout callback hup
    exact ⟨.away hup hdeflated hpublished, iff_of_false (by simp [hdeflated]) fun h => h.1 hup⟩
  rw [callAsync_up hup]
  by_cases hcompress : env.compress
  · by_cases hlen : text.length ≤ tr50MinCompressionLen
    · simp only [tr50BuildPayload, hcompress, hlen, if_true, ne_eq, not_true_eq_false, if_false]
      refine ⟨.plain hup (submit_deflated ..) (publishesWell_submit (Or.inl ⟨rfl, rfl⟩)), ?_⟩
      rw [submit_deflated]
      exact iff_of_false Bool.false_ne_true fun h => absurd h.2.2 (not_lt.mpr hlen)
    · have hlen' := not_le.mp hlen
      by_cases hret : (env.deflate text).1 = 0
      · simp only [tr50BuildPayload, hcompress, hlen, hret, if_true, ne_eq, not_true_eq_false,
          if_false]
        refine ⟨.deflated hup hcompress hret (submit_deflated ..)
          (publishesWell_submit (Or.inr ⟨rfl, hret, rfl⟩)), ?_⟩
        rw [submit_deflated]
        exact iff_of_true rfl ⟨hup, trivial, hlen'⟩
      · simp only [tr50BuildPayload, hcompress, hlen, hret, if_true, ne_eq, not_false_eq_true,
          if_false]
        exact ⟨.failed hup hcompress hret rfl rfl, iff_of_true trivial ⟨hup, trivial, hlen'⟩⟩
  · simp only [tr50BuildPayload, if_neg hcompress, ne_eq, not_true_eq_false, if_false]
    refine ⟨.plain hup (submit_deflated ..) (publishesWell_submit (Or.inl ⟨rfl, rfl⟩)), ?_⟩
    rw [submit_deflated]
    exact iff_of_false Bool.false_ne_true fun h => hcompress h.2.1

/-- …and `tr50_api_raw_async` from the bound on. -/
theorem rawAsync_outcome (env : SubmitEnv) (s : Tr50Client κ) (text : List UInt8) (timeout : ℤ)
    (callback : Option κ) :
    Outcome env s (cut text) (s.tr50ApiRawAsync env text timeout callback)
    ∧ ((s.tr50ApiRawAsync env text timeout callback).deflated ↔
      ¬ (s.stopped ∨ s.isStopping) ∧ env.compress ∧ tr50MinCompressionLen ≤ (cut text).length) := by
  by_cases hup : s.stopped ∨ s.isStopping
  · obtain ⟨hdeflated, hpublished⟩ := rawAsync_away env text timeout callback hup
    exact ⟨.away hup hdeflated hpublished, iff_of_false (by simp [hdeflated]) fun h => h.1 hup⟩
  rw [rawAsync_up hup]
  by_cases hlong : env.compress ∧ (cut text).length ≥ tr50MinCompressionLen
  · by_cases hret : (env.deflate (cut text)).1 = 0
    · simp only [if_pos hlong, hret, ne_eq, not_true_eq_false, if_false]
      refine ⟨.deflated hup hlong.1 hret (submit_deflated ..)
        (publishesWell_submit (Or.inr ⟨rfl, hret, rfl⟩)), ?_⟩
      rw [submit_deflated]
      exact iff_of_true rfl ⟨hup, hlong⟩
    · simp only [if_pos hlong, hret, ne_eq, not_false_eq_true, if_true]
      exact ⟨.failed hup hlong.1 hret rfl rfl, iff_of_true trivial ⟨hup, hlong⟩⟩
  · simp only [if_neg hlong]
    refine ⟨.plain hup (submit_deflated ..) (publishesWell_submit (Or.inl ⟨rfl, rfl⟩)), ?_⟩
    rw [submit_deflated]
    exact iff_of_false Bool.false_ne_true fun h => hlong h.2

/-- **The two submitters agree on a text exactly if neither reaches `_compress_deflate`, or both do
and it succeeds.** -/
theorem agree_iff (env : SubmitEnv) (s : Tr50Client κ) (text : List UInt8) (timeout timeout' : ℤ)
    (callback callback' : Option κ) :
    Agree env s (cut text) (s.tr50ApiCallAsync env (.ok (cut text)) timeout callback)
        (s.tr50ApiRawAsync env text timeout' callback') ↔
      s.stopped ∨ s.isStopping ∨ env.compress = false
      ∨ (cut text).length < tr50MinCompressionLen
      ∨ tr50MinCompressionLen < (cut text).length ∧ (env.deflate (cut text)).1 = 0 := by
  obtain ⟨hcall, hcall'⟩ := callAsync_outcome env s (cut text) timeout callback
  obtain ⟨hraw, hraw'⟩ := rawAsync_outcome env s text timeout' callback'
  have hiff : Agree env s (cut text) (s.tr50ApiCallAsync env (.ok (cut text)) timeout callback)
      (s.tr50ApiRawAsync env text timeout' callback') ↔
      ((s.tr50ApiCallAsync env (.ok (cut text)) timeout callback).deflated
        ↔ (s.tr50ApiRawAsync env text timeout' callback').deflated)
      ∧ ((s.tr50ApiCallAsync env (.ok (cut text)) timeout callback).deflated
        → (env.deflate (cut text)).1 = 0)
      ∧ ((s.tr50ApiRawAsync env text timeout' callback').deflated
        → (env.deflate (cut text)).1 = 0) := by
    rw [← hcall.fallsBack_iff, ← hraw.fallsBack_iff]
    exact ⟨fun h => ⟨by rw [h.deflated], h.callFallsBack, h.rawFallsBack⟩, fun h =>
      ⟨hcall.publishesWell, hraw.publishesWell, Bool.eq_iff_iff.mpr h.1, h.2.1, h.2.2⟩⟩
  rw [hiff, hcall', hraw']
  by_cases hstopped : s.stopped
  · simp [hstopped]
  by_cases hstopping : s.isStopping
  · simp [hstopping]
  by_cases hcompress : env.compress
  · rcases lt_trichotomy (cut text).length tr50MinCompressionLen with hlen | hlen | hlen
    · simp [hlen, not_lt.mpr hlen.le, not_le.mpr hlen]
    · simp [hstopped, hstopping, hcompress, hlen]
    · simp [hstopped, hstopping, hcompress, hlen, hlen.le, not_lt.mpr hlen.le]
  · simp [hcompress]

/-- A client that compresses, with a `_compress_deflate` that returns `ret`. -/
def compressing (ret : ℤ) : SubmitEnv := ⟨true, fun text => (ret, text.take 16), 0, 0⟩

/-- At the bound only `tr50_api_raw_async` compresses; and where `_compress_deflate` is out of
memory both calls fail. -/
theorem not_agree_at_bound :
    (¬ ∀ (env : SubmitEnv) (s : Tr50Client Unit) (text : List UInt8) (timeout timeout' : ℤ)
      (callback callback' : Option Unit),
      Agree env s (cut text) (s.tr50ApiCallAsync env (.ok (cut text)) timeout callback)
        (s.tr50ApiRawAsync env text timeout' callback'))
    ∧ (Tr50Client.init.tr50ApiCallAsync (compressing errTr50Malloc) (.ok (.replicate 129 120)) 0
        (some ())).ret = errTr50Malloc
    ∧ (Tr50Client.init.tr50ApiRawAsync (compressing errTr50Malloc) (.replicate 129 120) 0
        (some ())).ret = errTr50Malloc := by
  refine ⟨fun h => ?_, by decide +kernel, by decide +kernel⟩
  have hdeflated := (h (compressing 0) .init (.replicate 128 120) 0 0 none none).deflated
  revert hdeflated
  decide +kernel

/-! ## What a failed call leaves -/

/-- A request that has been added and is found again leaves the list as it was. -/
theorem findAndRemove_added (pending : Tr50Pending κ) (message : Tr50Message κ) (now : ℤ)
    (hid : ∀ m ∈ pending.list, m.seqId ≠ message.seqId)
    (hfresh : ∀ m ∈ pending.list, m.handle ≠ message.handle) :
    ∃ m, tr50PendingFindAndRemove (tr50PendingAdd pending message now) message.seqId
      = (some m, pending) := by
  obtain ⟨added, hlist, hhandle, hseq⟩ : ∃ added, (tr50PendingAdd pending message now).list
      = pending.list ++ [added] ∧ added.handle = message.handle ∧ added.seqId = message.seqId :=
    ⟨_, rfl, rfl, rfl⟩
  have hnone : (pending.list.find? fun m => m.seqId = message.seqId) = none :=
    List.find?_eq_none.mpr fun m hm => by simpa using hid m hm
  have hfind : ((tr50PendingAdd pending message now).list.find? fun m => m.seqId = message.seqId)
      = some added := by
    rw [hlist, List.find?_append, hnone, Option.none_or]
    exact List.find?_cons_of_pos (by simpa using hseq)
  have herase : (tr50PendingAdd pending message now).list.eraseP (fun m => m.handle = added.handle)
      = pending.list := by
    rw [hlist, List.eraseP_append_right _ fun m hm => by simpa [hhandle] using hfresh m hm]
    simp
  refine ⟨added, ?_⟩
  rw [tr50PendingFindAndRemove, hfind]
  simp only [tr50PendingLinklistRemove, herase]
  simp [tr50PendingAdd]

/-- A request that is not published is taken out again. -/
theorem submit_unlinks {message : Tr50Message κ} (hid : ∀ m ∈ s.pending.list,
      m.seqId ≠ message.seqId) (hfresh : ∀ m ∈ s.pending.list, m.handle ≠ message.handle)
    (topic data : List UInt8) (deflated : Bool)
    (hret : ((s.addMessage env message).submit env message topic data deflated).ret ≠ 0) :
    ((s.addMessage env message).submit env message topic data deflated).client.pending
      = s.pending := by
  obtain ⟨m, hfind⟩ := findAndRemove_added s.pending message env.now hid hfresh
  by_cases hpublish : env.publish ≠ 0
  · rw [submit, if_pos hpublish, addMessage, hfind]
  · rw [submit, if_neg hpublish] at hret
    exact absurd rfl hret

/-- **A failed `tr50_api_raw_async` leaves the list as it was, unless `_compress_deflate` fails**:
the request that is freed there stays in the list. -/
theorem rawAsync_unlinks_iff (env : SubmitEnv) (s : Tr50Client κ) (text : List UInt8) (timeout : ℤ)
    (callback : Option κ) (hid : ∀ m ∈ s.pending.list, m.seqId ≠ tr50ApiMsgIdNext s.seqId)
    (hfresh : ∀ m ∈ s.pending.list, m.handle ≠ s.nextHandle) :
    ((s.tr50ApiRawAsync env text timeout callback).ret ≠ 0
        → (s.tr50ApiRawAsync env text timeout callback).client.pending = s.pending) ↔
      s.stopped ∨ s.isStopping ∨ env.compress = false
      ∨ (cut text).length < tr50MinCompressionLen ∨ (env.deflate (cut text)).1 = 0 := by
  by_cases hstopped : s.stopped
  · simp [tr50ApiRawAsync, hstopped]
  by_cases hstopping : s.isStopping
  · simp [tr50ApiRawAsync, hstopped, hstopping]
  rw [rawAsync_up (not_or.mpr ⟨hstopped, hstopping⟩)]
  have hsubmit := @submit_unlinks κ env s.taken (s.nextMessage .raw timeout callback) hid
    hfresh
  by_cases hlong : env.compress ∧ (cut text).length ≥ tr50MinCompressionLen
  · by_cases hret : (env.deflate (cut text)).1 = 0
    · simp only [if_pos hlong, hret, ne_eq, not_true_eq_false, if_false]
      exact iff_of_true (hsubmit _ _ _) (by simp)
    · simp only [if_pos hlong, hret, ne_eq, not_false_eq_true, if_true, forall_const]
      refine iff_of_false (fun h => ?_) (by simp [hstopped, hstopping, hlong])
      have hlength := congrArg (fun p : Tr50Pending κ => p.list.length) h
      simp [addMessage, tr50PendingAdd, taken] at hlength
  · simp only [if_neg hlong]
    refine iff_of_true (hsubmit _ _ _) ?_
    rw [not_and_or, not_le] at hlong
    rcases hlong with hplain | hshort
    · simp [hplain]
    · simp [hshort]

/-- A client with one request waiting: the next one is compressed, and cannot be published. -/
theorem rawAsync_unlinks_refused : ∃ (env : SubmitEnv) (s : Tr50Client Unit) (text : List UInt8),
    s.pending.list.length = 1 ∧ (env.deflate (cut text)).1 = 0 ∧ env.compress
      ∧ (s.tr50ApiRawAsync env text 0 none).ret ≠ 0
      ∧ (s.tr50ApiRawAsync env text 0 none).client.pending = s.pending := by
  let s : Tr50Client Unit :=
    ((init : Tr50Client Unit).tr50ApiRawAsync (compressing 0) [] 10 none).client
  let env : SubmitEnv := { compressing 0 with publish := 1 }
  have hret : (s.tr50ApiRawAsync env (.replicate 128 120) 0 none).ret ≠ 0 := by decide +kernel
  refine ⟨env, s, .replicate 128 120, by decide, rfl, rfl, hret,
    (rawAsync_unlinks_iff env s _ 0 none (by decide) (by decide)).mpr ?_ hret⟩
  exact Or.inr (Or.inr (Or.inr (Or.inr rfl)))

/-- Where `_compress_deflate` is out of memory the list keeps the request. -/
theorem not_rawAsync_unlinks : ¬ ∀ (env : SubmitEnv) (s : Tr50Client Unit) (text : List UInt8)
    (timeout : ℤ) (callback : Option Unit),
    (∀ m ∈ s.pending.list, m.seqId ≠ tr50ApiMsgIdNext s.seqId) →
      (s.tr50ApiRawAsync env text timeout callback).ret ≠ 0 →
        (s.tr50ApiRawAsync env text timeout callback).client.pending = s.pending := by
  intro h
  have hsame := h (compressing errTr50Malloc) .init (.replicate 128 120) 0 none (by decide)
    (by decide +kernel)
  have hlength := congrArg (fun p : Tr50Pending Unit => p.list.length) hsame
  revert hlength
  decide +kernel

/-! ## Runs -/

variable {inflate : List UInt8 → Option (List UInt8)} {message : Tr50Message κ} {deflated : Bool}
  {returned : List Returned} {r : Submitted κ}

/-- A run of `Api/Client` from `s` leaves what `r` says, and has noted what has returned. -/
def RunsAs (inflate : List UInt8 → Option (List UInt8)) (s : Tr50Client κ)
    (returned : List Returned) (r : Submitted κ) : Prop :=
  ∃ t, Reach (step inflate) (fun _ _ => True) s t ∧ t.history.returned = returned
    ∧ t = { r.client with history := t.history }

theorem RunsAs.after {t : Tr50Client κ} (a : Action κ) (ht : Tr50Client.step inflate s a = some t)
    (h : RunsAs inflate t returned r) : RunsAs inflate s returned r := by
  obtain ⟨u, hreach, hu⟩ := h
  exact ⟨u, (Reach.tail .refl trivial ht).trans hreach, hu⟩

/-- The call returns. -/
theorem RunsAs.leave (hcall : s.call = none) (message : Tr50Message κ) (history : History κ)
    (ret : ℤ) (published : Option (ApiPublish κ)) :
    RunsAs inflate ({ s with history }.leave message ret)
      (⟨message.handle, message.messageType, ret⟩ :: history.returned)
      ⟨ret, s, deflated, published⟩ := by
  refine ⟨_, .refl, rfl, ?_⟩
  simp only [Tr50Client.leave, hcall]

/-- `mqtt_async_publish` is called, and the message looked for if it fails. -/
theorem submit_run (hsweep : s.sweep = .idle) (hcall : s.call = none) (message : Tr50Message κ)
    (history : History κ) (topic data : List UInt8) (deflated : Bool) :
    RunsAs inflate { s with call := some ⟨false, message, .publish⟩, history }
      (⟨message.handle, message.messageType, (s.submit env message topic data deflated).ret⟩
        :: history.returned)
      (s.submit env message topic data deflated) := by
  refine RunsAs.after (.publish env.publish) rfl ?_
  by_cases hret : env.publish ≠ 0
  · rw [if_pos hret, submit, if_pos hret]
    rcases hfind : tr50PendingFindAndRemove s.pending message.seqId with ⟨_ | found, pending⟩
    · refine RunsAs.after .remove ?_ (RunsAs.leave hcall message history 0 _)
      change apiRemove _ ⟨false, message, .remove env.publish⟩ env.publish = _
      simp [apiRemove, goOn, leave, PendingFree, hsweep, hfind]
    · let history' : History κ :=
        { history with unlinked := (found.submission, .call) :: history.unlinked }
      refine RunsAs.after .remove ?_
        (RunsAs.leave (s := { s with pending }) hcall message history' env.publish _)
      change apiRemove _ ⟨false, message, .remove env.publish⟩ env.publish = _
      simp [apiRemove, goOn, leave, PendingFree, hsweep, hfind, history']
  · rw [if_neg hret, submit, if_neg hret]
    exact RunsAs.leave hcall message history 0 _

/-- The request goes into the list. -/
theorem add_step (inflate : List UInt8 → Option (List UInt8)) (s : Tr50Client κ)
    (hsweep : s.sweep = .idle) (env : SubmitEnv) {message : Tr50Message κ} {stage : Stage}
    (hstage : message.messageType = .obj ∧ stage = .publish
      ∨ message.messageType = .raw ∧ stage = .compress) :
    step inflate { s with call := some ⟨false, message, .add⟩ } (.add env.now)
      = some { s.addMessage env message with
          call := some ⟨false, message, stage⟩
          history := { s.history with added := message.submission :: s.history.added } } := by
  change apiAdd _ ⟨false, message, .add⟩ env.now = _
  simp only [apiAdd, PendingFree, hsweep, or_true, if_true, goOn, addMessage]
  rcases hstage with ⟨htype, rfl⟩ | ⟨htype, rfl⟩ <;> rw [htype]

/-- A client that is up takes the call on. -/
theorem enter_step (inflate : List UInt8 → Option (List UInt8)) (hcall : s.call = none)
    (hstopped : ¬ s.stopped) (hstopping : ¬ s.isStopping) {messageType : MessageType}
    {stage : Stage} (hstage : messageType = .obj ∧ stage = .payload
      ∨ messageType = .raw ∧ stage = .add) :
    step inflate s (.api false messageType timeout callback)
      = some { s.taken with
          call := some ⟨false, s.nextMessage messageType timeout callback, stage⟩ } := by
  change s.apiEnter false messageType timeout callback = _
  rcases hstage with ⟨rfl, rfl⟩ | ⟨rfl, rfl⟩ <;>
    simp [apiEnter, hcall, hstopped, hstopping, taken, nextMessage]

/-- A client that is down turns the call away. -/
theorem away_run (hcall : s.call = none) (messageType : MessageType) (timeout : ℤ)
    (callback : Option κ) {ret : ℤ}
    (h : s.stopped ∧ ret = errTr50NotConnected
      ∨ ¬ s.stopped ∧ s.isStopping ∧ ret = errTr50Stopping) :
    RunsAs inflate s (⟨s.nextHandle, messageType, ret⟩ :: s.history.returned)
      ⟨ret, { s with nextHandle := s.nextHandle + 1 }, false, none⟩ := by
  refine RunsAs.after (.api false messageType timeout callback) ?_
    (RunsAs.leave (s := { s with nextHandle := s.nextHandle + 1 }) hcall
      ⟨s.nextHandle, messageType, 0, timeout, callback, 0, 0⟩ s.history ret none)
  change s.apiEnter false messageType timeout callback = _
  rcases h with ⟨hstopped, rfl⟩ | ⟨hstopped, hstopping, rfl⟩
  · simp [apiEnter, hcall, hstopped]
  · simp [apiEnter, hcall, hstopped, hstopping]

/-- **`tr50_api_call_async` is a run**… -/
theorem callAsync_run (hsweep : s.sweep = .idle) (hcall : s.call = none)
    (raw : Except ℤ (List UInt8)) :
    RunsAs inflate s
      (⟨s.nextHandle, .obj, (s.tr50ApiCallAsync env raw timeout callback).ret⟩
        :: s.history.returned)
      (s.tr50ApiCallAsync env raw timeout callback) := by
  by_cases hstopped : s.stopped
  · rw [tr50ApiCallAsync, if_pos hstopped]
    exact away_run hcall .obj timeout callback (Or.inl ⟨hstopped, rfl⟩)
  by_cases hstopping : s.isStopping
  · rw [tr50ApiCallAsync, if_neg hstopped, if_pos hstopping]
    exact away_run hcall .obj timeout callback (Or.inr ⟨hstopped, hstopping, rfl⟩)
  rw [callAsync_up (not_or.mpr ⟨hstopped, hstopping⟩)]
  generalize tr50BuildPayload env _ raw = built
  let message := s.nextMessage .obj timeout callback
  refine RunsAs.after (.api false .obj timeout callback)
    (enter_step inflate hcall hstopped hstopping (Or.inl ⟨rfl, rfl⟩)) ?_
  by_cases hret : built.ret ≠ 0
  · simp only [if_pos hret]
    refine RunsAs.after (.payload built.ret) ?_
      (RunsAs.leave (s := s.taken) hcall message s.history _ none)
    exact congrArg some (if_pos hret)
  · simp only [if_neg hret]
    refine RunsAs.after (.payload 0) rfl (RunsAs.after (.add env.now)
      (add_step inflate s.taken hsweep env (Or.inl ⟨rfl, rfl⟩)) ?_)
    exact submit_run (s := s.taken.addMessage env message) hsweep hcall message _ _ _ _

/-- **…and so is `tr50_api_raw_async`.** -/
theorem rawAsync_run (hsweep : s.sweep = .idle) (hcall : s.call = none) :
    RunsAs inflate s
      (⟨s.nextHandle, .raw, (s.tr50ApiRawAsync env text timeout callback).ret⟩
        :: s.history.returned)
      (s.tr50ApiRawAsync env text timeout callback) := by
  by_cases hstopped : s.stopped
  · rw [tr50ApiRawAsync, if_pos hstopped]
    exact away_run hcall .raw timeout callback (Or.inl ⟨hstopped, rfl⟩)
  by_cases hstopping : s.isStopping
  · rw [tr50ApiRawAsync, if_neg hstopped, if_pos hstopping]
    exact away_run hcall .raw timeout callback (Or.inr ⟨hstopped, hstopping, rfl⟩)
  rw [rawAsync_up (not_or.mpr ⟨hstopped, hstopping⟩)]
  let message := s.nextMessage .raw timeout callback
  refine RunsAs.after (.api false .raw timeout callback)
    (enter_step inflate hcall hstopped hstopping (Or.inr ⟨rfl, rfl⟩)) (RunsAs.after (.add env.now)
      (add_step inflate s.taken hsweep env (Or.inr ⟨rfl, rfl⟩)) ?_)
  by_cases hlong : env.compress ∧ (cut text).length ≥ tr50MinCompressionLen
  · simp only [if_pos hlong]
    by_cases hret : (env.deflate (cut text)).1 ≠ 0
    · simp only [if_pos hret]
      refine RunsAs.after (.compress (env.deflate (cut text)).1) ?_
        (RunsAs.leave (s := s.taken.addMessage env message) hcall message
          { s.history with added := message.submission :: s.history.added } _ none)
      exact congrArg some (if_pos hret)
    · simp only [if_neg hret]
      exact RunsAs.after (.compress 0) rfl
        (submit_run (s := s.taken.addMessage env message) hsweep hcall message _ _ _ _)
  · simp only [if_neg hlong]
    exact RunsAs.after (.compress 0) rfl
      (submit_run (s := s.taken.addMessage env message) hsweep hcall message _ _ _ _)

end Tr50Client

end Tr50
