import Tr50.Api.Configured
import Tr50.Util.Target

/-!
# Api/Dangling — a client from its creation to its end

In a good run a getter returns what was set last, a reconnect finds the parameters of the start, and
`tr50_delete` leaves what the settings count as lost (`config_refines`).  A name or a password reset
to NULL leaves its pointer behind (`Dangling`), which no call takes away, and which `tr50_delete`
frees again: so the good runs are those that get through it (`config_delete_iff`).  A connection
through a proxy is good only if it fails (`connects_proxy`).
-/

namespace Tr50

open Machinery

variable {s s' : ConfigClient} {a : ConfigSpec} {f : ConfigField}

/-! ## Pointers left behind -/

namespace ConfigClient

variable {malloc : ℕ → Bool} {c : ConfigCall} {meets : Option ConnectMeets} {r : ℤ}

/-- What the calls that do not set strings leave alone. -/
structure Keeps (s s' : ConfigClient) : Prop where
  config : s'.config = s.config
  gone : ∀ p, s.heap.Gone p → s'.heap.Gone p

theorem Keeps.refl (s : ConfigClient) : Keeps s s := ⟨rfl, fun _ h => h⟩

theorem Keeps.trans {t : ConfigClient} (h : Keeps s s') (h' : Keeps s' t) : Keeps s t :=
  ⟨h'.config.trans h.config, fun p hp => h'.gone p (h.gone p hp)⟩

theorem setParams_keeps {change : ConnectParams ℕ → ConnectParams ℕ}
    (h : s.setParams change = some s') : Keeps s s' := by
  obtain ⟨p, -, h⟩ := Option.bind_eq_some_iff.mp h
  obtain ⟨params, -, h⟩ := Option.bind_eq_some_iff.mp h
  obtain ⟨heap, hwrite, h⟩ := Option.bind_eq_some_iff.mp h
  obtain rfl := Option.some.inj h
  exact ⟨rfl, fun q hq => hq.write hwrite⟩

theorem copyText_keeps {granted : Bool} (h : s.copyText f granted = some s') : Keeps s s' := by
  obtain ⟨text, -, h⟩ := Option.bind_eq_some_iff.mp h
  have hclone : Keeps s { s with heap := (s.heap.clone granted (.text text)).2 } :=
    ⟨rfl, fun q hq => hq.clone granted⟩
  exact hclone.trans (setParams_keeps h)

theorem copyIf_keeps {granted : Bool} (h : s.copyIf f granted = some s') : Keeps s s' := by
  unfold copyIf at h
  split_ifs at h
  · exact copyText_keeps h
  · obtain rfl := Option.some.inj h
    exact .refl s

theorem create_keeps (h : s.mqttConnectParamsCreate malloc = some s') : Keeps s s' := by
  unfold mqttConnectParamsCreate at h
  split_ifs at h
  · obtain ⟨clientId, -, h⟩ := Option.bind_eq_some_iff.mp h
    have hput : Keeps s { s with
        heap := s.heap.put (.params (s.config.params clientId))
        params := some s.heap.next } := ⟨rfl, fun q hq => hq.put⟩
    exact hput.trans (copyText_keeps h)
  · obtain rfl := Option.some.inj h
    exact .refl s

theorem useProxy_keeps (h : s.mqttConnectParamsUseProxy malloc = some s') : Keeps s s' := by
  obtain ⟨s₁, h₁, h⟩ := Option.bind_eq_some_iff.mp h
  obtain ⟨s₂, h₂, h⟩ := Option.bind_eq_some_iff.mp h
  obtain ⟨s₃, h₃, h⟩ := Option.bind_eq_some_iff.mp h
  exact (((setParams_keeps h₁).trans (copyIf_keeps h₂)).trans (copyIf_keeps h₃)).trans
    (copyIf_keeps h)

theorem paramsUsername_keeps (h : s.mqttConnectParamsSetUsername malloc = some s') :
    Keeps s s' := by
  obtain ⟨s₁, h₁, h⟩ := Option.bind_eq_some_iff.mp h
  exact (copyText_keeps h₁).trans (copyText_keeps h)

theorem connectReads_keeps {meets : ConnectMeets} (h : s.mqttConnectReads meets = some s') :
    Keeps s s' := by
  obtain ⟨params, -, h⟩ := Option.bind_eq_some_iff.mp h
  split_ifs at h
  obtain ⟨_, -, rfl⟩ := Option.map_eq_some_iff.mp h
  exact .refl s

theorem asyncConnectReads_keeps (h : s.mqttAsyncConnectReads meets = some s') : Keeps s s' := by
  cases meets with
  | none =>
    obtain rfl := Option.some.inj h
    exact .refl s
  | some meets => exact connectReads_keeps h

/-- A step that is taken, or not. -/
theorem keeps_of_ite {b : Prop} [Decidable b] {next : Option ConfigClient}
    (hnext : next = some s' → Keeps s s') (h : (if b then next else some s) = some s') :
    Keeps s s' := by
  split_ifs at h
  · exact hnext h
  · obtain rfl := Option.some.inj h
    exact .refl s

theorem start_keeps {connect : ℤ} (h : s.tr50Start2 malloc meets connect = some (r, s')) :
    Keeps s s' := by
  unfold tr50Start2 at h
  split_ifs at h
  · obtain rfl := (Prod.mk.inj (Option.some.inj h)).2
    exact .refl s
  · obtain ⟨s₁, h₁, h⟩ := Option.bind_eq_some_iff.mp h
    obtain ⟨s₂, h₂, h⟩ := Option.bind_eq_some_iff.mp h
    obtain ⟨s₃, h₃, h⟩ := Option.bind_eq_some_iff.mp h
    obtain ⟨s₄, h₄, h⟩ := Option.bind_eq_some_iff.mp h
    obtain ⟨s₅, h₅, h⟩ := Option.bind_eq_some_iff.mp h
    obtain ⟨s₆, h₆, h⟩ := Option.bind_eq_some_iff.mp h
    obtain rfl := (Prod.mk.inj (Option.some.inj h)).2
    have hkeeps := ((((create_keeps h₁).trans (keeps_of_ite useProxy_keeps h₂)).trans
      (keeps_of_ite setParams_keeps h₃)).trans (keeps_of_ite setParams_keeps h₄)).trans
      (keeps_of_ite paramsUsername_keeps h₅)
    have hlast := hkeeps.trans (asyncConnectReads_keeps h₆)
    exact ⟨hlast.config, hlast.gone⟩

theorem stop_keeps {disconnect : ℤ} (h : s.tr50Stop disconnect = some (r, s')) : Keeps s s' := by
  unfold tr50Stop at h
  split_ifs at h
  · obtain rfl := (Prod.mk.inj (Option.some.inj h)).2
    exact .refl s
  · split at h
    · obtain rfl := (Prod.mk.inj (Option.some.inj h)).2
      exact ⟨rfl, fun _ hp => hp⟩
    · obtain ⟨heap, hdelete, h⟩ := Option.map_eq_some_iff.mp h
      obtain rfl := (Prod.mk.inj h).2
      obtain ⟨params, -, hdelete⟩ := Option.bind_eq_some_iff.mp hdelete
      obtain ⟨heap', hfree, hdelete⟩ := Option.bind_eq_some_iff.mp hdelete
      exact ⟨rfl, fun p hp => (hp.freeEach hfree).free hdelete⟩
  · obtain rfl := (Prod.mk.inj (Option.some.inj h)).2
    exact .refl s

/-- A name or a password whose block has been freed. -/
def Dangling (s : ConfigClient) : Prop :=
  ∃ f p, (f = .username ∨ f = .password) ∧ s.config.text f = some p ∧ s.heap.Gone p

theorem Dangling.keeps (h : Dangling s) (hkeeps : Keeps s s') : Dangling s' := by
  obtain ⟨f, p, hf, hp, hgone⟩ := h
  exact ⟨f, p, hf, by rw [hkeeps.config, hp], hkeeps.gone p hgone⟩

/-- A setter of another string leaves it so; its own setter frees the block again. -/
theorem Dangling.setText (h : Dangling s) {granted : Bool} {text : Option (List UInt8)}
    (hset : s.setText f granted text = some s') : Dangling s' := by
  obtain ⟨g, p, hg, hp, hgone⟩ := h
  obtain ⟨s₁, hs₁, rfl⟩ := Option.map_eq_some_iff.mp hset
  obtain ⟨heap, hfree, rfl⟩ := Option.map_eq_some_iff.mp hs₁
  have hne : g ≠ f := by
    rintro rfl
    rw [hgone.freeEach_eq_none (List.mem_singleton.mpr hp.symm)] at hfree
    exact Option.some_ne_none _ hfree.symm
  refine ⟨g, p, hg, (cloneIf_text_of_ne hne granted text).trans hp, ?_⟩
  cases text with
  | none => exact hgone.freeEach hfree
  | some text => exact (hgone.freeEach hfree).clone granted

/-- **No call takes the pointer away.** -/
theorem Dangling.call (h : Dangling s) (hc : s.call c = some (r, s')) : Dangling s' := by
  have hset : ∀ {next : Option ConfigClient}, (∀ s', next = some s' → Dangling s') →
      next.map ((0 : ℤ), ·) = some (r, s') → Dangling s' := fun hnext hmap => by
    obtain ⟨s₁, hs₁, heq⟩ := Option.map_eq_some_iff.mp hmap
    obtain rfl := (Prod.mk.inj heq).2
    exact hnext s₁ hs₁
  have hnumbers : ∀ config : Tr50Config ℕ, config.text = s.config.text →
      some ((0 : ℤ), { s with config }) = some (r, s') → Dangling s' := fun config htext heq => by
    obtain rfl := (Prod.mk.inj (Option.some.inj heq)).2
    obtain ⟨f, p, hf, hp, hgone⟩ := h
    exact ⟨f, p, hf, by rw [← hp]; exact congrFun htext f, hgone⟩
  cases c with
  | setHost granted host => exact hset (fun _ hs => h.setText hs) hc
  | setClientId granted clientId => exact hset (fun _ hs => h.setText hs) hc
  | setUsername granted username => exact hset (fun _ hs => h.setText hs) hc
  | setPassword granted password => exact hset (fun _ hs => h.setText hs) hc
  | setProxy malloc type addr username password =>
    refine hset (fun s₁ hs₁ => ?_) hc
    obtain ⟨heap, hfree, rfl⟩ := Option.map_eq_some_iff.mp hs₁
    obtain ⟨g, p, hg, hp, hgone⟩ := h
    have hclone : ∀ {s : ConfigClient} {f : ConfigField} (granted : Bool)
        (text : Option (List UInt8)), g ≠ f → s.config.text g = some p ∧ s.heap.Gone p →
        (s.cloneIf f granted text).config.text g = some p
        ∧ (s.cloneIf f granted text).heap.Gone p := fun {s f} granted text hne hs => by
      refine ⟨(cloneIf_text_of_ne hne granted text).trans hs.1, ?_⟩
      cases text with
      | none => exact hs.2
      | some text => exact hs.2.clone granted
    have hcleared : (clearProxy { s with heap, config.proxyType := type }).config.text g = some p
        ∧ heap.Gone p := by
      refine ⟨?_, hgone.freeEach hfree⟩
      rcases hg with rfl | rfl <;> exact hp
    have hall : ∀ f ∈ ([.proxyAddr, .proxyUsername, .proxyPassword] : List ConfigField),
        g ≠ f := by
      rcases hg with rfl | rfl <;> decide
    have hlast := hclone (malloc 2) password (hall .proxyPassword (by decide))
      (hclone (malloc 1) username (hall .proxyUsername (by decide))
        (hclone (malloc 0) addr (hall .proxyAddr (by decide)) hcleared))
    exact ⟨g, p, hg, hlast⟩
  | setPort port => exact hnumbers { s.config with port } rfl hc
  | setKeeplive keepaliveInMs => exact hnumbers { s.config with keepaliveInMs } rfl hc
  | setTimeout timeoutInMs => exact hnumbers { s.config with timeoutInMs } rfl hc
  | setSsl enabled => exact hnumbers { s.config with ssl := enabled } rfl hc
  | setHttpsProxy enabled =>
    exact hnumbers { s.config with httpsProxy := enabled } rfl hc
  | setCompress supported enabled =>
    cases supported with
    | true => exact hnumbers { s.config with compress := enabled } rfl hc
    | false =>
      obtain rfl := (Prod.mk.inj (Option.some.inj hc)).2
      exact h
  | start malloc meets connect => exact h.keeps (start_keeps hc)
  | stop disconnect => exact h.keeps (stop_keeps hc)
  | reconnect meets =>
    change (if s.started then (s.mqttConnectReads meets).map ((0 : ℤ), ·) else some (0, s))
      = some (r, s') at hc
    split_ifs at hc
    · exact hset (fun _ hs => h.keeps (connectReads_keeps hs)) hc
    · obtain rfl := (Prod.mk.inj (Option.some.inj hc)).2
      exact h

/-- **`tr50_delete` frees it again.** -/
theorem Dangling.run (h : Dangling s) {calls : List ConfigCall} (hrun : s.run calls = some s') :
    s'.tr50Delete = none := by
  induction calls generalizing s with
  | nil =>
    obtain rfl := Option.some.inj hrun
    obtain ⟨f, p, -, hp, hgone⟩ := h
    exact hgone.freeEach_eq_none (List.mem_map.mpr ⟨f, f.mem_all, hp⟩)
  | cons c calls ih =>
    obtain ⟨s₁, hs₁, hrun⟩ := Option.bind_eq_some_iff.mp hrun
    obtain ⟨⟨r, s₂⟩, hcall, rfl⟩ := Option.map_eq_some_iff.mp hs₁
    exact ih (h.call hcall) hrun

end ConfigClient

open ConfigClient

/-- A string reset to NULL leaves its pointer. -/
theorem Configured.reset (h : Configured s a) (hf : f = .username ∨ f = .password)
    (hset : a.config.text f ≠ none) {granted : Bool}
    (hcall : s.setText f granted none = some s') : Dangling s' := by
  obtain ⟨p, hp⟩ := Option.ne_none_iff_exists'.mp fun hnull => hset ((h.null_iff f).mp hnull)
  obtain ⟨s₁, hs₁, rfl⟩ := Option.map_eq_some_iff.mp hcall
  obtain ⟨heap, hfree, rfl⟩ := Option.map_eq_some_iff.mp hs₁
  have hfree' : s.heap.free p = some heap := by
    rw [hp, Heap.freeEach, List.reduceOption_singleton, Option.toList_some,
      List.foldlM_cons] at hfree
    obtain ⟨heap', hfirst, hlast⟩ := Option.bind_eq_some_iff.mp hfree
    rw [hfirst]
    exact hlast
  obtain ⟨hlive, rfl⟩ := Heap.free_eq_some hfree'
  exact ⟨f, p, hf, hp, Heap.gone_drop hlive⟩

/-- A start without a host or a client id. -/
theorem Configured.create_null (h : Configured s a) {malloc : ℕ → Bool} (hm : malloc 0)
    (hnull : ¬ ((a.config.text .clientId).isSome ∧ (a.config.text .host).isSome)) :
    s.mqttConnectParamsCreate malloc = none := by
  rw [mqttConnectParamsCreate, if_pos hm, h.readText]
  cases hclientId : a.config.text .clientId with
  | none => rfl
  | some clientId =>
    have hhost : s.config.text .host = none := by
      refine (h.null_iff _).mpr (Option.not_isSome_iff_eq_none.mp fun hsome => ?_)
      refine hnull ⟨?_, hsome⟩
      rw [hclientId]
      rfl
    have hread : ConfigClient.readText { s with
        heap := s.heap.put (.params (s.config.params clientId))
        params := some s.heap.next } .host = none := by
      unfold ConfigClient.readText
      rw [hhost]
      rfl
    change ConfigClient.copyText _ _ _ = none
    rw [ConfigClient.copyText, hread]
    rfl

/-- Nothing comes of a connection that goes wrong with its strings. -/
theorem Configured.connects_bad (h : Configured s a) {v : ConnectParams (List UInt8)}
    (hv : a.params = some v) {meets : ConnectMeets} (hbad : ¬ (v.connects meets).isSome)
    {f : ConfigClient → ℤ × ConfigClient} {out : ℤ × ConfigClient} {p : Prop}
    (hcall : (s.mqttConnectReads meets).map f = some out) : p := by
  rw [h.connectReads hv, Option.not_isSome_iff_eq_none.mp hbad] at hcall
  cases hcall

/-- **A bad call is not survived**, or leaves a pointer behind. -/
theorem Configured.bad (h : Configured s a) {c : ConfigCall} (hbad : ¬ a.Good c) (hm : c.Granted)
    {r : ℤ} (hcall : s.call c = some (r, s')) : Dangling s' := by
  have hreset : ∀ {f : ConfigField} {granted : Bool}, f = .username ∨ f = .password →
      a.config.text f ≠ none → (s.setText f granted none).map ((0 : ℤ), ·) = some (r, s') →
      Dangling s' := fun hf hset hmap => by
    obtain ⟨s₁, hs₁, heq⟩ := Option.map_eq_some_iff.mp hmap
    obtain rfl := (Prod.mk.inj heq).2
    exact h.reset hf hset hs₁
  cases c with
  | setUsername granted username =>
    cases username with
    | none => exact hreset (Or.inl rfl) hbad hcall
    | some username => exact absurd trivial hbad
  | setPassword granted password =>
    cases password with
    | none => exact hreset (Or.inr rfl) hbad hcall
    | some password => exact absurd trivial hbad
  | start malloc meets connect =>
    obtain ⟨hdown, hbad⟩ := not_or.mp hbad
    have hm : malloc 0 := hm
    have hcall : s.tr50Start2 malloc meets connect = some (r, s') := hcall
    by_cases hnull : (a.config.text .clientId).isSome ∧ (a.config.text .host).isSome
    swap
    · rw [tr50Start2, if_neg (h.started ▸ hdown), h.create_null hm hnull] at hcall
      exact absurd hcall.symm (Option.some_ne_none _)
    obtain ⟨s₁, h₁, hstart⟩ := h.startReads (Bool.eq_false_iff.mpr hdown) hm hnull.1 hnull.2
    rw [hstart] at hcall
    cases meets with
    | none => exact absurd ⟨hnull.1, hnull.2, fun m hm => absurd hm (Option.not_mem_none m)⟩ hbad
    | some meets =>
      refine h₁.connects_bad rfl (fun hgood => hbad ⟨hnull.1, hnull.2, fun m hm => ?_⟩) hcall
      obtain rfl := Option.some.inj hm
      exact hgood
  | reconnect meets =>
    obtain ⟨hup, v, hv, hbad⟩ : a.started ∧ ∃ v, a.params = some v
        ∧ ¬ (v.connects meets).isSome := by
      simpa [ConfigSpec.Good, and_assoc] using hbad
    have hcall : (if s.started then (s.mqttConnectReads meets).map ((0 : ℤ), ·) else some (0, s))
      = some (r, s') := hcall
    rw [if_pos (h.started ▸ hup)] at hcall
    exact h.connects_bad hv hbad hcall
  | _ => exact absurd trivial hbad

/-- Whoever deletes the client frees its strings, and no other block. -/
theorem Configured.delete (h : Configured s a) :
    ∃ heap left, s.tr50Delete = some heap ∧ heap.Owned left
      ∧ left.length = a.lost + 1 + a.paramsCount := by
  obtain ⟨owned, lost, hparams, hholds, hlost⟩ := h.blocks
  have hpointers : (ConfigField.all.map s.config.text).reduceOption
      = Heap.pointers ConfigField.all s.config.text := by
    rw [List.reduceOption, List.filterMap_map]
    rfl
  have howned := hholds.owned
  rw [← hpointers] at howned
  obtain ⟨heap, hfree, hleft, -⟩ := howned.freeEach
  refine ⟨heap, owned ++ lost, hfree, hleft, ?_⟩
  rw [List.length_append, hparams.length, hlost, ConfigSpec.paramsCount, Nat.add_comm]

/-! ## Whole lives -/

/-- **The client is what its settings say, and what is lost is counted.**  As long as no name or
password that is set is reset to NULL, every start has a host and a client id, no connection goes
wrong with its strings, and there is memory for the parameter blocks: no call touches a block that
is gone; a getter returns what has been set last; while the client is started its parameters are the
settings as they were at the start; and `tr50_delete` leaves the client itself, the parameters it
still has, those of every start that has failed, and the proxy strings of every start that has been
stopped. -/
theorem config_refines (calls : List ConfigCall) (hgood : ConfigSpec.blank.GoodRun calls)
    (hm : ∀ c ∈ calls, c.Granted) :
    ∃ s heap left, ConfigClient.blank.run calls = some s ∧ Configured s (ConfigSpec.blank.run calls)
      ∧ (∀ f, s.readText f = (ConfigSpec.blank.run calls).config.text f)
      ∧ s.tr50Delete = some heap ∧ heap.Owned left
      ∧ left.length = (ConfigSpec.blank.run calls).lost + 1
        + (ConfigSpec.blank.run calls).paramsCount := by
  obtain ⟨s, hrun, h⟩ := refines_blank.run hgood hm
  obtain ⟨heap, left, hdelete, howned, hlength⟩ := h.delete
  exact ⟨s, heap, left, hrun, h, fun f => h.readText, hdelete, howned, hlength⟩

/-- A proxy that is not there. -/
def absentPeer : ProxyPeer := ⟨fun _ => none, -1, fun _ => 0, []⟩

/-- What a connection through it meets. -/
def absentProxy : ConnectMeets := .network absentPeer 0 true

/-- A client is started twice, through a proxy that is not there, reconnects, and is stopped. -/
theorem config_refines_twice : ∃ s heap left, ConfigClient.blank.run
      (tr50CreateCalls (fun _ => true) [97] [98] 1883
        ++ [.setUsername true (some [117]), .setProxy (fun _ => true) 1 (some [112]) none none,
          .start (fun _ => true) none (-1), .start (fun _ => true) (some absentProxy) 0,
          .setHost true [99], .reconnect absentProxy, .stop 0]) = some s
    ∧ s.readText .host = some [99] ∧ s.tr50Delete = some heap ∧ heap.Owned left
    ∧ left.length = 5 := by
  have hgood : ConfigSpec.blank.GoodRun (tr50CreateCalls (fun _ => true) [97] [98] 1883
      ++ [.setUsername true (some [117]), .setProxy (fun _ => true) 1 (some [112]) none none,
        .start (fun _ => true) none (-1), .start (fun _ => true) (some absentProxy) 0,
        .setHost true [99], .reconnect absentProxy, .stop 0]) := by
    refine ⟨trivial, trivial, trivial, trivial, trivial, trivial, trivial,
      Or.inr ⟨rfl, rfl, fun m hm => nomatch hm⟩, Or.inr ⟨rfl, rfl, fun m hm => ?_⟩, trivial,
      fun _ v hv => ?_, trivial, trivial⟩
    · obtain rfl := Option.some.inj hm
      decide
    · obtain rfl := Option.some.inj hv
      decide
  obtain ⟨s, heap, left, hrun, -, hread, hdelete, howned, hlength⟩ :=
    config_refines _ hgood (by simp [tr50CreateCalls, ConfigCall.Granted])
  exact ⟨s, heap, left, hrun, (hread .host).trans (by decide), hdelete, howned,
    hlength.trans (by decide)⟩

theorem Configured.delete_isSome_iff (h : Configured s a) {calls : List ConfigCall}
    (hm : ∀ c ∈ calls, c.Granted) :
    ((s.run calls).bind tr50Delete).isSome ↔ a.GoodRun calls := by
  refine ⟨fun hsome => ?_, fun hgood => ?_⟩
  · obtain ⟨heap, hheap⟩ := Option.isSome_iff_exists.mp hsome
    obtain ⟨s', hrun, hdelete⟩ := Option.bind_eq_some_iff.mp hheap
    clear hsome hheap
    induction calls generalizing s a with
    | nil => trivial
    | cons c calls ih =>
      obtain ⟨s₁, hs₁, hrest⟩ := Option.bind_eq_some_iff.mp hrun
      obtain ⟨⟨r, s₂⟩, hcall, rfl⟩ := Option.map_eq_some_iff.mp hs₁
      have hmc := hm c List.mem_cons_self
      by_cases hc : a.Good c
      · obtain ⟨s₃, hs₃, h₃⟩ := h.call hc hmc
        obtain rfl := (Prod.mk.inj (Option.some.inj (hcall.symm.trans hs₃))).2
        exact ⟨hc, ih h₃ (fun c hc => hm c (List.mem_cons_of_mem _ hc)) hrest⟩
      · rw [(h.bad hc hmc hcall).run hrest] at hdelete
        exact absurd hdelete.symm (Option.some_ne_none _)
  · obtain ⟨s', hrun, h'⟩ := h.run hgood hm
    obtain ⟨heap, left, hdelete, -⟩ := h'.delete
    rw [hrun, Option.bind_some, hdelete]
    rfl

/-- **Through a proxy** a connection goes well with its strings only if the proxy has an address,
and is not reached. -/
theorem connects_proxy {params : ConnectParams (List UInt8)} (hproxy : 0 < params.proxyType)
    {peer : ProxyPeer} {httpsConnect : ℤ} {malloc : Bool}
    (h : (params.connects (.network peer httpsConnect malloc)).isSome) :
    (params.text .proxyAddr).isSome ∧ peer.connect ≠ 0 := by
  have h : (if 0 < params.proxyType then
      params.connectsProxy (.network peer httpsConnect malloc)
    else params.connectsHost (.network peer httpsConnect malloc)).isSome := h
  rw [if_pos hproxy, ConnectParams.connectsProxy] at h
  cases haddr : params.text .proxyAddr with
  | none =>
    rw [haddr] at h
    cases h
  | some addr =>
    refine ⟨rfl, ?_⟩
    rw [haddr, Option.bind_eq_bind, Option.bind_some] at h
    dsimp only at h
    rcases tcpConnectProxy_eq peer ((params.text .host).getD []) params.port
        (if params.useSsl then 4 else 0) params.proxyType addr (params.text .proxyUsername)
        (params.text .proxyPassword) with hundefined | ⟨hconnect, -⟩
    · rw [hundefined] at h
      cases h
    · exact hconnect

/-- **A client gets from `tr50_create` through `tr50_delete` without freeing a block twice, reading
one that is gone, looking into NULL or connecting with strings that `mqtt_connect` is undefined for,
if and only if no call of its life resets a name or a password that is set to NULL, no start lacks a
host or a client id, and no connection goes wrong with its strings** — given memory for the
parameter blocks. -/
theorem config_delete_iff (calls : List ConfigCall) (hm : ∀ c ∈ calls, c.Granted) :
    ((ConfigClient.blank.run calls).bind tr50Delete).isSome ↔ ConfigSpec.blank.GoodRun calls :=
  refines_blank.delete_isSome_iff hm

/-- …as it does not when a name is set, and reset. -/
theorem config_delete_iff_reset : ¬ ((ConfigClient.blank.run
      (tr50CreateCalls (fun _ => true) [97] [98] 1883
        ++ [.setUsername true (some [117]), .setUsername true none])).bind tr50Delete).isSome := by
  rw [config_delete_iff _ (by simp [tr50CreateCalls, ConfigCall.Granted])]
  rintro ⟨-, -, -, -, -, -, hreset, -⟩
  exact Option.some_ne_none [117] hreset

/-- The type of a proxy without its address, and a start. -/
example : ¬ ConfigSpec.blank.GoodRun (tr50CreateCalls (fun _ => true) [97] [98] 1883
    ++ [.setProxy (fun _ => true) 1 none none none,
      .start (fun _ => true) (some absentProxy) 0]) := by
  rintro ⟨-, -, -, -, -, -, hstart, -⟩
  obtain ⟨-, -, hmeets⟩ := hstart.resolve_left Bool.false_ne_true
  exact Bool.false_ne_true (hmeets _ rfl)

end Tr50
