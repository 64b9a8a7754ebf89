import Tr50.Api.Config

/-!
# Api/Configured — a client is what its settings say

`Configured` relates the client over its heap to its settings as values: the strings read as the
settings, the parameters as those of the last start, and every block is that of a string, of the
parameters, or lost.  Every good call keeps it (`Configured.call`), and so does a good run.
-/

namespace Tr50

open Machinery

/-! ## The relation -/

/-- The numbers with other strings. -/
def Tr50Config.retext {τ σ : Type} (config : Tr50Config τ) (text : ConfigField → Option σ) :
    Tr50Config σ :=
  ⟨text, config.port, config.ssl, config.httpsProxy, config.keepaliveInMs, config.timeoutInMs,
    config.compress, config.proxyType⟩

/-- Strings as blocks. -/
def blocksOf (text : ConfigField → Option (List UInt8)) (f : ConfigField) : Option ConfigBlock :=
  (text f).map .text

theorem ConfigField.mem_all (f : ConfigField) : f ∈ ConfigField.all := by
  cases f <;> decide

theorem ConfigField.nodup_all : ConfigField.all.Nodup := by decide

theorem blocksOf_update (text : ConfigField → Option (List UInt8)) (f : ConfigField)
    (t : Option (List UInt8)) :
    Function.update (blocksOf text) f (t.map .text) = blocksOf (Function.update text f t) := by
  funext g
  by_cases h : g = f
  · rw [h, Function.update_self, blocksOf, Function.update_self]
  · rw [Function.update_of_ne h, blocksOf, blocksOf, Function.update_of_ne h]

/-- A string is there where its setting is. -/
theorem isSome_of_reads {heap : Heap ConfigBlock} {ptr : ConfigField → Option ℕ}
    {text : ConfigField → Option (List UInt8)}
    (hreads : ∀ f, (ptr f).map heap.block = (blocksOf text f).map some) (f : ConfigField) :
    (ptr f).isSome = (text f).isSome := by
  rw [Heap.isSome_of_reads hreads f, blocksOf, Option.isSome_map]

/-- …and NULL where that is. -/
theorem null_iff_of_reads {heap : Heap ConfigBlock} {ptr : ConfigField → Option ℕ}
    {text : ConfigField → Option (List UInt8)}
    (hreads : ∀ f, (ptr f).map heap.block = (blocksOf text f).map some) (f : ConfigField) :
    ptr f = none ↔ text f = none := by
  rw [← Option.not_isSome_iff_eq_none, ← Option.not_isSome_iff_eq_none, isSome_of_reads hreads f]

/-- The parameters, where there are some, and their blocks. -/
inductive ParamsRefine (heap : Heap ConfigBlock) :
    Option ℕ → Option (ConnectParams (List UInt8)) → List ℕ → Prop
  | null : ParamsRefine heap none none []
  | there {p : ℕ} {params : ConnectParams ℕ} (text : ConfigField → Option (List UInt8))
      (hblock : heap.block p = some (.params params))
      (hreads : ∀ f, (params.text f).map heap.block = (blocksOf text f).map some) :
      ParamsRefine heap (some p) (some (params.retext text))
        (p :: Heap.pointers ConfigField.all params.text)

/-- The blocks are those of the strings, of the parameters, and the lost ones. -/
structure Configured (s : ConfigClient) (a : ConfigSpec) : Prop where
  config : a.config = s.config.retext a.config.text
  started : a.started = s.started
  connected : a.started → a.params.isSome
  blocks : ∃ owned lost : List ℕ, ParamsRefine s.heap s.params a.params owned
    ∧ s.heap.Holds ConfigField.all s.config.text (blocksOf a.config.text) (owned ++ lost)
    ∧ lost.length = a.lost + 1

variable {s s' : ConfigClient} {a : ConfigSpec} {f : ConfigField}

theorem Configured.reads (h : Configured s a) (f : ConfigField) :
    (s.config.text f).map s.heap.block = (blocksOf a.config.text f).map some := by
  obtain ⟨owned, lost, -, hholds, -⟩ := h.blocks
  exact hholds.reads f

theorem Configured.null_iff (h : Configured s a) (f : ConfigField) :
    s.config.text f = none ↔ a.config.text f = none := null_iff_of_reads h.reads f

theorem refines_blank : Configured .blank .blank := by
  refine ⟨rfl, rfl, fun h => absurd h Bool.false_ne_true, [], [0], .null, ⟨?_, fun _ => rfl⟩, rfl⟩
  exact Heap.owned_empty.put ConfigBlock.client

/-- The parameters do not change with the blocks of others. -/
theorem ParamsRefine.frame {heap heap' : Heap ConfigBlock} {p : Option ℕ}
    {params : Option (ConnectParams (List UInt8))} {owned : List ℕ}
    (h : ParamsRefine heap p params owned)
    (hkeep : ∀ p ∈ owned, heap'.block p = heap.block p) : ParamsRefine heap' p params owned := by
  cases h with
  | null => exact .null
  | @there p params text hblock hreads =>
    exact .there text ((hkeep p List.mem_cons_self).trans hblock)
      (Heap.reads_of_keep hreads ConfigField.mem_all fun q hq =>
        hkeep q (List.mem_cons_of_mem _ hq))

/-! ## Setters -/

/-- A string is freed and its field cleared, in the settings as in the client. -/
theorem Configured.clear (h : Configured s a) (f : ConfigField) :
    ∃ heap, s.heap.freeEach [s.config.text f] = some heap
      ∧ Configured { s with heap, config.text := Function.update s.config.text f none }
        { a with config.text := Function.update a.config.text f none } := by
  obtain ⟨owned, lost, hparams, hholds, hlost⟩ := h.blocks
  obtain ⟨heap, hfree, hholds', hkeep⟩ :=
    hholds.clear ConfigField.nodup_all ConfigField.mem_all f
  refine ⟨heap, hfree, ⟨?_, h.started, h.connected, owned, lost,
    hparams.frame fun p hp => hkeep p (List.mem_append_left _ hp), ?_, hlost⟩⟩
  · rw [h.config]
    rfl
  · rw [← blocksOf_update a.config.text f none]
    exact hholds'

/-- A field that is NULL is given a text. -/
theorem Configured.cloneIf (h : Configured s a) (hnull : s.config.text f = none) (granted : Bool)
    (text : Option (List UInt8)) :
    Configured (s.cloneIf f granted text) (a.setText f granted text) := by
  obtain ⟨owned, lost, hparams, hholds, hlost⟩ := h.blocks
  have hconfig : ∀ text : ConfigField → Option (List UInt8), { a.config with text }
      = s.config.retext text := by
    intro text
    rw [h.config]
    rfl
  cases text with
  | none =>
    have hkeep : ConfigSpec.keep granted none = a.config.text f := by
      rw [(h.null_iff f).mp hnull, ConfigSpec.keep, ite_self]
    rw [ConfigClient.cloneIf, ConfigSpec.setText, hkeep, Function.update_eq_self]
    exact h
  | some text =>
    obtain ⟨hholds', hkeep⟩ := hholds.clone ConfigField.nodup_all ConfigField.mem_all hnull granted
      (.text text)
    refine ⟨hconfig _, h.started, h.connected, owned, lost,
      hparams.frame fun p hp => hkeep p (List.mem_append_left _ hp), ?_, hlost⟩
    have hblocks := blocksOf_update a.config.text f (ConfigSpec.keep granted (some text))
    rw [ConfigSpec.setText, ← hblocks, ConfigSpec.keep, apply_ite (Option.map ConfigBlock.text)]
    exact hholds'

/-- **A setter of one string.** -/
theorem Configured.setText (h : Configured s a) (f : ConfigField) (granted : Bool)
    (text : Option (List UInt8)) (hgood : text = none → a.config.text f = none) :
    ∃ s', s.setText f granted text = some s' ∧ Configured s' (a.setText f granted text) := by
  obtain ⟨heap, hfree, hclear⟩ := h.clear f
  refine ⟨_, by rw [ConfigClient.setText, ConfigClient.freeText, hfree]; rfl, ?_⟩
  have hset := hclear.cloneIf (f := f) (Function.update_self ..) granted text
  rw [ConfigSpec.setText] at hset ⊢
  simp only [Function.update_idem] at hset
  cases text with
  | none =>
    -- the field has been NULL before
    have hsame : Function.update s.config.text f none = s.config.text := by
      rw [← (h.null_iff f).mpr (hgood rfl), Function.update_eq_self]
    rw [hsame] at hset
    exact hset
  | some text =>
    simp only [ConfigClient.cloneIf, ConfigClient.cloneText, Function.update_idem] at hset ⊢
    exact hset

/-- The numbers change in the settings as in the client. -/
theorem Configured.numbers (h : Configured s a) (config : Tr50Config ℕ)
    (config' : Tr50Config (List UInt8)) (htext : config.text = s.config.text)
    (htext' : config'.text = a.config.text) (heq : config' = config.retext config'.text) :
    Configured { s with config } { a with config := config' } := by
  obtain ⟨owned, lost, hparams, hholds, hlost⟩ := h.blocks
  refine ⟨heq, h.started, h.connected, owned, lost, hparams, ?_, hlost⟩
  rw [htext, htext']
  exact hholds

theorem cloneIf_text_of_ne {g : ConfigField} (hne : g ≠ f) (granted : Bool)
    (text : Option (List UInt8)) :
    (s.cloneIf f granted text).config.text g = s.config.text g := by
  cases text with
  | none => rfl
  | some text => exact Function.update_of_ne hne _ _

/-- …and of the three of the proxy. -/
theorem Configured.setProxy (h : Configured s a) (malloc : ℕ → Bool) (type : ℤ)
    (addr username password : Option (List UInt8)) :
    ∃ s', s.tr50ConfigSetProxy malloc type addr username password = some s'
      ∧ Configured s' (a.call (.setProxy malloc type addr username password)).2 := by
  obtain ⟨heap₁, hfree₁, h₁⟩ := h.clear .proxyAddr
  obtain ⟨heap₂, hfree₂, h₂⟩ := h₁.clear .proxyUsername
  obtain ⟨heap₃, hfree₃, h₃⟩ := h₂.clear .proxyPassword
  have hfree : s.heap.freeEach [s.config.text .proxyAddr, s.config.text .proxyUsername,
      s.config.text .proxyPassword] = some heap₃ := Heap.freeEach_three hfree₁ hfree₂ hfree₃
  have hnumbers := h₃.numbers { s.config with
      proxyType := type
      text := fun f =>
        if f = .proxyAddr ∨ f = .proxyUsername ∨ f = .proxyPassword then none
        else s.config.text f }
    { a.config with
      proxyType := type
      text := Function.update (Function.update (Function.update a.config.text .proxyAddr none)
        .proxyUsername none) .proxyPassword none }
    (by funext f; cases f <;> rfl) rfl (by rw [h.config]; rfl)
  have haddr := hnumbers.cloneIf (f := .proxyAddr) rfl (malloc 0) addr
  have husername := haddr.cloneIf (f := .proxyUsername)
    (cloneIf_text_of_ne (by decide) _ _) (malloc 1) username
  have hpassword := husername.cloneIf (f := .proxyPassword)
    ((cloneIf_text_of_ne (by decide) _ _).trans (cloneIf_text_of_ne (by decide) _ _)) (malloc 2)
    password
  refine ⟨_, by rw [ConfigClient.tr50ConfigSetProxy, hfree]; rfl, ?_⟩
  have hspec : ∀ t : ConfigField → Option (List UInt8), ∀ x y z : Option (List UInt8),
      Function.update (Function.update (Function.update (Function.update (Function.update
        (Function.update t .proxyAddr none) .proxyUsername none) .proxyPassword none)
        .proxyAddr x) .proxyUsername y) .proxyPassword z
      = Function.update (Function.update (Function.update t .proxyAddr x) .proxyUsername y)
        .proxyPassword z := by
    intro t x y z
    funext f
    cases f <;> rfl
  simp only [ConfigSpec.setText, hspec] at hpassword
  exact hpassword

/-! ## The parameter block -/

/-- The strings of the configuration and the parameters share the heap. -/
structure Shared (heap : Heap ConfigBlock) (config : ConfigField → Option ℕ)
    (configText : ConfigField → Option (List UInt8)) (p : ℕ) (params : ConnectParams ℕ)
    (text : ConfigField → Option (List UInt8)) (lost : List ℕ) : Prop where
  hblock : heap.block p = some (.params params)
  hconfig : ∀ f, (config f).map heap.block = (blocksOf configText f).map some
  hparams : heap.Holds ConfigField.all params.text (blocksOf text)
    (p :: (Heap.pointers ConfigField.all config ++ lost))

/-- Two lists of blocks and the one between them. -/
theorem perm_shared (xs ys zs : List ℕ) (p : ℕ) :
    (xs ++ (p :: ys ++ zs)).Perm (ys ++ p :: (xs ++ zs)) :=
  calc (xs ++ (p :: ys ++ zs)).Perm (p :: (xs ++ (ys ++ zs))) := List.perm_middle
    _ |>.Perm (p :: (ys ++ (xs ++ zs))) := (List.perm_append_comm_assoc xs ys zs).cons p
    _ |>.Perm (ys ++ p :: (xs ++ zs)) := List.perm_middle.symm

theorem Configured.shared (h : Configured s a) {v : ConnectParams (List UInt8)}
    (hv : a.params = some v) :
    ∃ p params lost, s.params = some p ∧ v = params.retext v.text ∧ lost.length = a.lost + 1
      ∧ Shared s.heap s.config.text a.config.text p params v.text lost := by
  obtain ⟨owned, lost, hparams, hholds, hlost⟩ := h.blocks
  rw [hv] at hparams
  generalize hp : s.params = ps at hparams
  cases hparams with
  | @there p params text hblock hreads =>
    exact ⟨p, params, lost, rfl, rfl, hlost, hblock, hholds.reads,
      hholds.owned.perm (perm_shared ..), hreads⟩

theorem Shared.refines {p : ℕ} {params : ConnectParams ℕ} {v : ConnectParams (List UInt8)}
    {lost : List ℕ} (hshared : Shared s.heap s.config.text a.config.text p params v.text lost)
    (hp : s.params = some p) (hv : v = params.retext v.text) (hlost : lost.length = a.lost + 1)
    (hconfig : a.config = s.config.retext a.config.text) (hstarted : a.started = s.started) :
    Configured s { a with params := some v } := by
  refine ⟨hconfig, hstarted, fun _ => rfl, p :: Heap.pointers ConfigField.all params.text, lost, ?_,
    ⟨?_, hshared.hconfig⟩, hlost⟩
  · rw [hp, hv]
    exact .there v.text hshared.hblock hshared.hparams.reads
  · exact hshared.hparams.owned.perm (perm_shared ..).symm

/-- The parameters are written anew, their strings being there. -/
theorem Shared.of_write {heap : Heap ConfigBlock} {config : ConfigField → Option ℕ}
    {configText text : ConfigField → Option (List UInt8)} {p : ℕ}
    (params : ConnectParams ℕ) {lost : List ℕ}
    (hconfig : ∀ f, (config f).map heap.block = (blocksOf configText f).map some)
    (hparams : heap.Holds ConfigField.all params.text (blocksOf text)
      (p :: (Heap.pointers ConfigField.all config ++ lost))) :
    ∃ heap', heap.write p (.params params) = some heap'
      ∧ Shared heap' config configText p params text lost := by
  obtain ⟨heap', hwrite, howned, hblock, hkeep⟩ :=
    hparams.owned.write (List.mem_append_right _ List.mem_cons_self) (.params params)
  have hnodup := List.nodup_append.mp hparams.owned.nodup
  refine ⟨heap', hwrite, hblock,
    Heap.reads_of_keep hconfig ConfigField.mem_all fun q hq => hkeep q fun heq => ?_,
    hparams.frame ConfigField.mem_all (fun q hq => hkeep q fun heq => ?_) howned⟩
  · exact (List.nodup_cons.mp hnodup.2.1).1 (heq ▸ List.mem_append_left lost hq)
  · exact hnodup.2.2 q hq p List.mem_cons_self heq

theorem readParams_eq {p : ℕ} {params : ConnectParams ℕ} (hp : s.params = some p)
    (hblock : s.heap.block p = some (.params params)) : s.readParams = some params := by
  rw [ConfigClient.readParams, hp, Option.bind_some, hblock]

/-- **A parameter is set.** -/
theorem Configured.setParams (h : Configured s a) {v : ConnectParams (List UInt8)}
    (hv : a.params = some v) (change : ConnectParams ℕ → ConnectParams ℕ)
    (change' : ConnectParams (List UInt8) → ConnectParams (List UInt8))
    (htext : ∀ params, (change params).text = params.text) (htext' : (change' v).text = v.text)
    (hchange : ∀ params : ConnectParams ℕ, v = params.retext v.text →
      change' v = (change params).retext v.text) :
    ∃ s', s.setParams change = some s' ∧ Configured s' { a with params := some (change' v) }
      ∧ s'.config = s.config := by
  obtain ⟨p, params, lost, hp, hretext, hlost, hshared⟩ := h.shared hv
  have hparams := hshared.hparams
  rw [← htext params] at hparams
  obtain ⟨heap', hwrite, hshared'⟩ := Shared.of_write (change params) hshared.hconfig hparams
  refine ⟨{ s with heap := heap' }, ?_, ?_, rfl⟩
  · rw [ConfigClient.setParams, hp, readParams_eq hp hshared.hblock]
    simp only [Option.bind_eq_bind, Option.bind_some, hwrite]
  · rw [← htext'] at hshared'
    refine hshared'.refines hp ?_ hlost h.config h.started
    rw [htext']
    exact hchange params hretext

/-- A string copied, in the settings. -/
def ConnectParams.copy (v : ConnectParams (List UInt8)) (config : Tr50Config (List UInt8))
    (f : ConfigField) (granted : Bool) : ConnectParams (List UInt8) :=
  { v with text := Function.update v.text f (ConfigSpec.keep granted (config.text f)) }

theorem ConnectParams.copy_text_of_ne (v : ConnectParams (List UInt8))
    (config : Tr50Config (List UInt8)) {g : ConfigField} (hne : g ≠ f) (granted : Bool) :
    (v.copy config f granted).text g = v.text g := Function.update_of_ne hne _ _

theorem Configured.readText (h : Configured s a) : s.readText f = a.config.text f := by
  unfold ConfigClient.readText
  cases hp : s.config.text f with
  | none => exact ((h.null_iff f).mp hp).symm
  | some p =>
    obtain ⟨owned, lost, -, hholds, -⟩ := h.blocks
    rw [Option.bind_some, hholds.block hp, blocksOf]
    cases a.config.text f <;> rfl

/-- **A string of the configuration is copied into the parameters.** -/
theorem Configured.copyText (h : Configured s a) {v : ConnectParams (List UInt8)}
    (hv : a.params = some v) (hnull : v.text f = none) (hsome : (a.config.text f).isSome)
    (granted : Bool) :
    ∃ s', s.copyText f granted = some s' ∧ s'.config = s.config
      ∧ Configured s' { a with params := some (v.copy a.config f granted) } := by
  obtain ⟨p, params, lost, hp, hretext, hlost, hshared⟩ := h.shared hv
  obtain ⟨t, ht⟩ := Option.isSome_iff_exists.mp hsome
  have hpnull : params.text f = none := (null_iff_of_reads hshared.hparams.reads f).mpr hnull
  obtain ⟨hholds, hkeep⟩ := hshared.hparams.clone ConfigField.nodup_all ConfigField.mem_all hpnull
    granted (.text t)
  have hblock := (hkeep p List.mem_cons_self).trans hshared.hblock
  have hconfig : ∀ f, (s.config.text f).map (s.heap.clone granted (.text t)).2.block
      = (blocksOf a.config.text f).map some :=
    Heap.reads_of_keep hshared.hconfig ConfigField.mem_all fun q hq =>
      hkeep q (List.mem_cons_of_mem _ (List.mem_append_left _ hq))
  have htext : Function.update (blocksOf v.text) f (if granted then some (.text t) else none)
      = blocksOf (Function.update v.text f (ConfigSpec.keep granted (some t))) := by
    rw [← blocksOf_update, ConfigSpec.keep, apply_ite (Option.map ConfigBlock.text)]
    rfl
  rw [htext] at hholds
  obtain ⟨heap', hwrite, hshared'⟩ := Shared.of_write { params with
    text := Function.update params.text f (s.heap.clone granted (.text t)).1 } hconfig hholds
  refine ⟨{ s with heap := heap' }, ?_, rfl, ?_⟩
  · have hread : ConfigClient.readParams
        { s with heap := (s.heap.clone granted (.text t)).2 } = some params :=
      readParams_eq hp hblock
    rw [ConfigClient.copyText, h.readText, ht]
    change ConfigClient.setParams { s with heap := (s.heap.clone granted (.text t)).2 } _ = _
    unfold ConfigClient.setParams
    rw [hread]
    simp only [Option.bind_eq_bind, Option.bind_some, hp, hwrite]
  · rw [ConnectParams.copy, ht]
    refine hshared'.refines hp ?_ hlost h.config h.started
    rw [hretext]
    rfl

/-- …where there is one. -/
theorem Configured.copyIf (h : Configured s a) {v : ConnectParams (List UInt8)}
    (hv : a.params = some v) (hnull : v.text f = none) (granted : Bool) :
    ∃ s', s.copyIf f granted = some s' ∧ s'.config = s.config
      ∧ Configured s' { a with params := some (v.copy a.config f granted) } := by
  unfold ConfigClient.copyIf
  rw [isSome_of_reads h.reads f]
  split_ifs with hsome
  · exact h.copyText hv hnull hsome granted
  · refine ⟨s, rfl, rfl, ?_⟩
    rw [ConnectParams.copy, Option.not_isSome_iff_eq_none.mp hsome, ConfigSpec.keep, ite_self,
      ← hnull, Function.update_eq_self, ← hv]
    exact h

theorem length_pointers {heap : Heap ConfigBlock} {ptr : ConfigField → Option ℕ}
    {text : ConfigField → Option (List UInt8)}
    (h : ∀ f, (ptr f).map heap.block = (blocksOf text f).map some) :
    (Heap.pointers ConfigField.all ptr).length = textCount text := by
  rw [textCount, Heap.pointers, List.length_filterMap_eq_countP, List.length_filterMap_eq_countP]
  simp only [isSome_of_reads h]

theorem ParamsRefine.length {heap : Heap ConfigBlock} {p : Option ℕ}
    {params : Option (ConnectParams (List UInt8))} {owned : List ℕ}
    (h : ParamsRefine heap p params owned) :
    owned.length = params.elim 0 fun params => textCount params.text + 1 := by
  cases h with
  | null => rfl
  | there text hblock hreads => exact congrArg (· + 1) (length_pointers hreads)

/-- **`mqtt_connect_params_create`**: the block that was there is lost. -/
theorem Configured.create (h : Configured s a) {malloc : ℕ → Bool} (hm : malloc 0)
    (hclientId : (a.config.text .clientId).isSome) (hhost : (a.config.text .host).isSome) :
    ∃ s', s.mqttConnectParamsCreate malloc = some s' ∧ s'.config = s.config
      ∧ Configured s' { a with
        params := some ((a.config.params ((a.config.text .clientId).getD [])).copy a.config .host
          (malloc 1))
        lost := a.lost + a.paramsCount } := by
  obtain ⟨owned, lost, hparams, hholds, hlost⟩ := h.blocks
  obtain ⟨clientId, hclient⟩ := Option.isSome_iff_exists.mp hclientId
  have hput := hholds.owned.put (ConfigBlock.params (s.config.params clientId))
  have hnew : ∀ p ∈ Heap.pointers ConfigField.all s.config.text,
      (s.heap.put (.params (s.config.params clientId))).block p = s.heap.block p := fun p hp =>
    Heap.block_put_of_ne (Heap.lt_next ((hholds.owned.mem p).mp (List.mem_append_left _ hp))).ne
  have hshared : Shared (s.heap.put (.params (s.config.params clientId))) s.config.text
      a.config.text s.heap.next (s.config.params clientId) (fun _ => none) (owned ++ lost) := by
    refine ⟨Heap.block_put_self, Heap.reads_of_keep hholds.reads ConfigField.mem_all hnew, ?_,
      fun _ => rfl⟩
    have hempty : Heap.pointers ConfigField.all (s.config.params clientId).text = [] := rfl
    rw [hempty]
    exact hput
  have hrefines : Configured { s with
        heap := s.heap.put (.params (s.config.params clientId))
        params := some s.heap.next }
      { a with
        params := some (a.config.params clientId)
        lost := a.lost + a.paramsCount } := by
    refine Shared.refines (a := { a with lost := a.lost + a.paramsCount }) hshared rfl ?_ ?_
      h.config h.started
    · rw [h.config]
      rfl
    · rw [List.length_append, hparams.length, hlost]
      change a.paramsCount + (a.lost + 1) = a.lost + a.paramsCount + 1
      omega
  obtain ⟨s', hcopy, hconfig, hrefines'⟩ := hrefines.copyText rfl (f := .host) rfl hhost (malloc 1)
  refine ⟨s', ?_, hconfig, ?_⟩
  · rw [ConfigClient.mqttConnectParamsCreate, if_pos hm, h.readText, hclient]
    exact hcopy
  · rw [hclient]
    exact hrefines'

/-- The parameters of a proxy. -/
theorem Configured.useProxy (h : Configured s a) {v : ConnectParams (List UInt8)}
    (hv : a.params = some v) (malloc : ℕ → Bool) (haddr : v.text .proxyAddr = none)
    (husername : v.text .proxyUsername = none) (hpassword : v.text .proxyPassword = none) :
    ∃ s', s.mqttConnectParamsUseProxy malloc = some s' ∧ s'.config = s.config
      ∧ Configured s' { a with params := some (((({ v with proxyType := a.config.proxyType }).copy
        a.config .proxyAddr (malloc 2)).copy a.config .proxyUsername (malloc 3)).copy
        a.config .proxyPassword (malloc 4)) } := by
  have htype : s.config.proxyType = a.config.proxyType := by
    rw [h.config]
    rfl
  obtain ⟨s₁, hs₁, h₁, hc₁⟩ := h.setParams hv
    (fun params => { params with proxyType := s.config.proxyType })
    (fun v => { v with proxyType := a.config.proxyType }) (fun _ => rfl) rfl
    fun params heq => by
      rw [heq, htype]
      rfl
  obtain ⟨s₂, hs₂, hc₂, h₂⟩ := h₁.copyIf rfl (f := .proxyAddr) haddr (malloc 2)
  obtain ⟨s₃, hs₃, hc₃, h₃⟩ := h₂.copyIf rfl (f := .proxyUsername)
    ((ConnectParams.copy_text_of_ne _ _ (by decide) _).trans husername) (malloc 3)
  obtain ⟨s₄, hs₄, hc₄, h₄⟩ := h₃.copyIf rfl (f := .proxyPassword)
    ((ConnectParams.copy_text_of_ne _ _ (by decide) _).trans
      ((ConnectParams.copy_text_of_ne _ _ (by decide) _).trans hpassword)) (malloc 4)
  refine ⟨s₄, ?_, hc₄.trans (hc₃.trans (hc₂.trans hc₁)), h₄⟩
  rw [ConfigClient.mqttConnectParamsUseProxy, hs₁]
  change ((s₁.copyIf .proxyAddr (malloc 2)).bind fun s =>
    (s.copyIf .proxyUsername (malloc 3)).bind fun s => s.copyIf .proxyPassword (malloc 4)) = _
  rw [hs₂, Option.bind_some, hs₃, Option.bind_some, hs₄]

/-- Name and password. -/
theorem Configured.paramsUsername (h : Configured s a) {v : ConnectParams (List UInt8)}
    (hv : a.params = some v) (malloc : ℕ → Bool) (husername : v.text .username = none)
    (hpassword : v.text .password = none) (hname : (a.config.text .username).isSome)
    (hword : (a.config.text .password).isSome) :
    ∃ s', s.mqttConnectParamsSetUsername malloc = some s' ∧ s'.config = s.config
      ∧ Configured s' { a with params := some ((v.copy a.config .username (malloc 5)).copy a.config
        .password (malloc 6)) } := by
  obtain ⟨s₁, hs₁, hc₁, h₁⟩ := h.copyText hv (f := .username) husername hname (malloc 5)
  obtain ⟨s₂, hs₂, hc₂, h₂⟩ := h₁.copyText rfl (f := .password)
    ((ConnectParams.copy_text_of_ne _ _ (by decide) _).trans hpassword) hword (malloc 6)
  refine ⟨s₂, ?_, hc₂.trans hc₁, h₂⟩
  rw [ConfigClient.mqttConnectParamsSetUsername, hs₁]
  exact hs₂

/-- The parameters read as what they are. -/
theorem paramText_eq {params : ConnectParams ℕ} {text : ConfigField → Option (List UInt8)}
    (hreads : ∀ f, (params.text f).map s.heap.block = (blocksOf text f).map some) :
    s.paramText params = text := by
  funext f
  have hf := hreads f
  unfold ConfigClient.paramText
  cases hp : params.text f with
  | none =>
    rw [hp] at hf
    exact ((null_iff_of_reads hreads f).mp hp).symm
  | some p =>
    rw [hp, blocksOf, Option.map_some] at hf
    obtain ⟨t, ht⟩ : ∃ t, text f = some t := by
      cases ht : text f with
      | none => rw [ht] at hf; cases hf
      | some t => exact ⟨t, rfl⟩
    rw [ht] at hf
    rw [Option.bind_some, Option.some.inj hf, ht]

/-- **What `mqtt_connect` reads is there**: it goes wrong only with what the strings say. -/
theorem Configured.connectReads (h : Configured s a) {v : ConnectParams (List UInt8)}
    (hv : a.params = some v) (meets : ConnectMeets) :
    s.mqttConnectReads meets = (v.connects meets).map fun _ => s := by
  obtain ⟨p, params, lost, hp, hretext, -, hshared⟩ := h.shared hv
  have hall : ConfigField.all.all (fun f => (params.text f).all fun p => (s.heap.block p).isSome)
      = true := by
    refine List.all_eq_true.mpr fun f _ => ?_
    cases hq : params.text f with
    | none => rfl
    | some q =>
      exact (hshared.hparams.owned.mem q).mp (List.mem_append_left _
        (Heap.mem_pointers.mpr ⟨f, f.mem_all, hq⟩))
  rw [ConfigClient.mqttConnectReads, readParams_eq hp hshared.hblock, Option.bind_eq_bind,
    Option.bind_some, if_pos hall, paramText_eq hshared.hparams.reads, ← hretext]

/-! ## Starting and stopping -/

section Start

variable (config : Tr50Config (List UInt8)) (malloc : ℕ → Bool)

/-- The parameters as they come to be, from step to step. -/
def paramsCreated : ConnectParams (List UInt8) :=
  (config.params ((config.text .clientId).getD [])).copy config .host (malloc 1)

def paramsProxied : ConnectParams (List UInt8) :=
  if 0 < config.proxyType then
    ((({ paramsCreated config malloc with proxyType := config.proxyType }).copy config .proxyAddr
      (malloc 2)).copy config .proxyUsername (malloc 3)).copy config .proxyPassword (malloc 4)
  else paramsCreated config malloc

def paramsSecured : ConnectParams (List UInt8) :=
  if config.ssl then { paramsProxied config malloc with useSsl := true }
  else paramsProxied config malloc

def paramsTunnelled : ConnectParams (List UInt8) :=
  if config.httpsProxy then
    { paramsSecured config malloc with useSsl := true, useHttpsProxy := true }
  else paramsSecured config malloc

def paramsNamed : ConnectParams (List UInt8) :=
  if (config.text .username).isSome ∧ (config.text .password).isSome then
    ((paramsTunnelled config malloc).copy config .username (malloc 5)).copy config .password
      (malloc 6)
  else paramsTunnelled config malloc

variable {config malloc}

theorem paramsTunnelled_text (f : ConfigField) :
    (paramsTunnelled config malloc).text f = (paramsProxied config malloc).text f := by
  unfold paramsTunnelled paramsSecured
  split_ifs <;> rfl

theorem paramsTunnelled_null (hf : f = .username ∨ f = .password) :
    (paramsTunnelled config malloc).text f = none := by
  rw [paramsTunnelled_text]
  unfold paramsProxied
  rcases hf with rfl | rfl <;> split_ifs <;> rfl

theorem paramsNamed_text (a : ConfigSpec) :
    (paramsNamed a.config malloc).text = a.paramsText malloc := by
  funext f
  have hproxied : (paramsProxied a.config malloc).text f
      = if f = .username ∨ f = .password then none else a.paramsText malloc f := by
    unfold paramsProxied ConfigSpec.paramsText
    split_ifs <;> cases f <;> simp_all <;> rfl
  have hnone : ∀ f, (a.config.text f).isSome = false → a.config.text f = none := fun f h =>
    Option.not_isSome_iff_eq_none.mp (Bool.eq_false_iff.mp h)
  unfold paramsNamed
  split_ifs with hboth
  · obtain ⟨hname, hword⟩ := hboth
    cases f <;> simp [ConnectParams.copy, Function.update, paramsTunnelled_text, hproxied,
      ConfigSpec.paramsText, hname, hword]
  · rw [paramsTunnelled_text, hproxied]
    split_ifs with hf
    · rcases hf with rfl | rfl
      · by_cases hword : (a.config.text .password).isSome
        · rw [ConfigSpec.paramsText, hnone .username (Bool.eq_false_iff.mpr fun h =>
            hboth ⟨h, hword⟩), ConfigSpec.keep, ite_self, ite_self]
        · rw [ConfigSpec.paramsText, if_neg hword]
      · by_cases hname : (a.config.text .username).isSome
        · rw [ConfigSpec.paramsText, hnone .password (Bool.eq_false_iff.mpr fun h =>
            hboth ⟨hname, h⟩), ConfigSpec.keep, ite_self, ite_self]
        · rw [ConfigSpec.paramsText, if_neg hname]
    · rfl

/-- They are in the end the parameters of the start. -/
theorem paramsNamed_eq (a : ConfigSpec) : paramsNamed a.config malloc = a.startParams malloc := by
  refine ConnectParams.ext ?_ (paramsNamed_text a) ?_ ?_ ?_ ?_ ?_
  all_goals
    unfold paramsNamed paramsTunnelled paramsSecured paramsProxied paramsCreated
      ConfigSpec.startParams ConnectParams.copy Tr50Config.params
    split_ifs <;> simp_all

end Start

/-- **`tr50_start2`** gets to its connection with the settings of the moment. -/
theorem Configured.startReads (h : Configured s a) (hdown : a.started = false) {malloc : ℕ → Bool}
    (hm : malloc 0) (hclientId : (a.config.text .clientId).isSome)
    (hhost : (a.config.text .host).isSome) :
    ∃ s', Configured s' { a with
        params := some (a.startParams malloc)
        lost := a.lost + a.paramsCount }
      ∧ ∀ (meets : Option ConnectMeets) (connect : ℤ), s.tr50Start2 malloc meets connect
        = (s'.mqttAsyncConnectReads meets).map fun s =>
          (connect, { s with started := connect = 0 }) := by
  obtain ⟨s₁, hs₁, -, h₁⟩ := h.create hm hclientId hhost
  have h₁ : Configured s₁ { a with
      params := some (paramsCreated a.config malloc)
      lost := a.lost + a.paramsCount } := h₁
  obtain ⟨s₂, hs₂, h₂⟩ : ∃ s₂, (if 0 < s₁.config.proxyType then s₁.mqttConnectParamsUseProxy malloc
      else some s₁) = some s₂ ∧ Configured s₂ { a with
        params := some (paramsProxied a.config malloc)
        lost := a.lost + a.paramsCount } := by
    rw [show s₁.config.proxyType = a.config.proxyType from congrArg (·.proxyType) h₁.config.symm]
    unfold paramsProxied
    split_ifs
    · obtain ⟨s₂, hs₂, -, h₂⟩ := h₁.useProxy rfl malloc rfl rfl rfl
      exact ⟨s₂, hs₂, h₂⟩
    · exact ⟨s₁, rfl, h₁⟩
  obtain ⟨s₃, hs₃, h₃⟩ : ∃ s₃, (if s₂.config.ssl then s₂.mqttConnectParamsUseSsl else some s₂)
      = some s₃ ∧ Configured s₃ { a with
        params := some (paramsSecured a.config malloc)
        lost := a.lost + a.paramsCount } := by
    rw [show s₂.config.ssl = a.config.ssl from congrArg (·.ssl) h₂.config.symm]
    unfold paramsSecured
    split_ifs
    · obtain ⟨s₃, hs₃, h₃, -⟩ := h₂.setParams rfl (fun params => { params with useSsl := true })
        (fun v => { v with useSsl := true })
        (fun _ => rfl) rfl fun params heq => by
          rw [heq]
          rfl
      exact ⟨s₃, hs₃, h₃⟩
    · exact ⟨s₂, rfl, h₂⟩
  obtain ⟨s₄, hs₄, h₄⟩ : ∃ s₄, (if s₃.config.httpsProxy then s₃.mqttConnectParamsUseHttpsProxy
      else some s₃) = some s₄ ∧ Configured s₄ { a with
        params := some (paramsTunnelled a.config malloc)
        lost := a.lost + a.paramsCount } := by
    rw [show s₃.config.httpsProxy = a.config.httpsProxy from
      congrArg (·.httpsProxy) h₃.config.symm]
    unfold paramsTunnelled
    split_ifs
    · obtain ⟨s₄, hs₄, h₄, -⟩ := h₃.setParams rfl
        (fun params => { params with useSsl := true, useHttpsProxy := true })
        (fun v => { v with useSsl := true, useHttpsProxy := true }) (fun _ => rfl) rfl
        fun params heq => by
          rw [heq]
          rfl
      exact ⟨s₄, hs₄, h₄⟩
    · exact ⟨s₃, rfl, h₃⟩
  obtain ⟨s₅, hs₅, h₅⟩ : ∃ s₅, (if (s₄.config.text .username).isSome
        ∧ (s₄.config.text .password).isSome then s₄.mqttConnectParamsSetUsername malloc
      else some s₄) = some s₅ ∧ Configured s₅ { a with
        params := some (paramsNamed a.config malloc)
        lost := a.lost + a.paramsCount } := by
    rw [isSome_of_reads h₄.reads, isSome_of_reads h₄.reads]
    unfold paramsNamed
    split_ifs with hboth
    · obtain ⟨s₅, hs₅, -, h₅⟩ := h₄.paramsUsername rfl malloc (paramsTunnelled_null (Or.inl rfl))
        (paramsTunnelled_null (Or.inr rfl)) hboth.1 hboth.2
      exact ⟨s₅, hs₅, h₅⟩
    · exact ⟨s₄, rfl, h₄⟩
  rw [paramsNamed_eq] at h₅
  refine ⟨s₅, h₅, fun meets connect => ?_⟩
  have hdown' : ¬ s.started := by
    rw [← h.started, hdown]
    exact Bool.false_ne_true
  rw [ConfigClient.tr50Start2, if_neg hdown']
  simp only [Option.bind_eq_bind, Option.bind_some, hs₁, hs₂, hs₃, hs₄, hs₅]
  cases s₅.mqttAsyncConnectReads meets <;> rfl

theorem Configured.asyncConnectReads (h : Configured s a) {v : ConnectParams (List UInt8)}
    (hv : a.params = some v) {meets : Option ConnectMeets}
    (hmeets : ∀ m ∈ meets, (v.connects m).isSome) : s.mqttAsyncConnectReads meets = some s := by
  cases meets with
  | none => rfl
  | some meets =>
    obtain ⟨_, hconnects⟩ := Option.isSome_iff_exists.mp (hmeets meets rfl)
    rw [ConfigClient.mqttAsyncConnectReads, h.connectReads hv, hconnects, Option.map_some]

/-- …and is started, if the connection is defined. -/
theorem Configured.start (h : Configured s a) (hdown : a.started = false) {malloc : ℕ → Bool}
    (hm : malloc 0) (hclientId : (a.config.text .clientId).isSome)
    (hhost : (a.config.text .host).isSome) {meets : Option ConnectMeets}
    (hmeets : ∀ m ∈ meets, ((a.startParams malloc).connects m).isSome) (connect : ℤ) :
    ∃ s', s.tr50Start2 malloc meets connect = some (connect, s')
      ∧ Configured s' (a.call (.start malloc meets connect)).2 := by
  obtain ⟨s', h', hstart⟩ := h.startReads hdown hm hclientId hhost
  refine ⟨{ s' with started := connect = 0 }, ?_, ?_⟩
  · rw [hstart, h'.asyncConnectReads rfl hmeets, Option.map_some]
  · simp only [ConfigSpec.call, hdown, Bool.false_eq_true, if_false]
    exact ⟨h'.config, rfl, fun _ => rfl, h'.blocks⟩

/-- **`mqtt_connect_params_delete`** leaves the strings of the proxy. -/
theorem Shared.delete {p : ℕ} {params : ConnectParams ℕ} {configText text : ConfigField →
      Option (List UInt8)} {lost : List ℕ}
    (h : Shared s.heap s.config.text configText p params text lost) (hp : s.params = some p) :
    ∃ heap left, s.mqttConnectParamsDelete p = some heap
      ∧ heap.Holds ConfigField.all s.config.text (blocksOf configText) (left ++ lost)
      ∧ left.length = textCount (ConfigSpec.leftText text) := by
  obtain ⟨heap₁, hfree₁, h₁, hk₁⟩ :=
    h.hparams.clear ConfigField.nodup_all ConfigField.mem_all .host
  obtain ⟨heap₂, hfree₂, h₂, hk₂⟩ := h₁.clear ConfigField.nodup_all ConfigField.mem_all .username
  obtain ⟨heap₃, hfree₃, h₃, hk₃⟩ := h₂.clear ConfigField.nodup_all ConfigField.mem_all .password
  have hfree : s.heap.freeEach [params.text .host, params.text .username, params.text .password]
      = some heap₃ := Heap.freeEach_three hfree₁ hfree₂ hfree₃
  have hleft : (blocksOf (ConfigSpec.leftText text)) = Function.update (Function.update
      (Function.update (blocksOf text) .host none) .username none) .password none := by
    funext f
    cases f <;> rfl
  rw [← hleft] at h₃
  obtain ⟨hdrop, howned⟩ := (h₃.owned.perm List.perm_middle).free
  have hkeep : ∀ q ∈ Heap.pointers ConfigField.all s.config.text,
      (heap₃.drop p).block q = s.heap.block q := by
    intro q hq
    have hmem : q ∈ Heap.pointers ConfigField.all s.config.text ++ lost :=
      List.mem_append_left _ hq
    have hnodup := (List.nodup_append.mp h.hparams.owned.nodup).2.1
    have hne : q ≠ p := fun heq => (List.nodup_cons.mp hnodup).1 (heq ▸ hmem)
    have hin := List.mem_cons_of_mem p hmem
    calc (heap₃.drop p).block q = heap₃.block q := Heap.block_drop_of_ne hne
      _ = heap₂.block q := hk₃ q hin
      _ = heap₁.block q := hk₂ q hin
      _ = s.heap.block q := hk₁ q hin
  refine ⟨heap₃.drop p, _, ?_, ⟨howned.perm (List.perm_append_comm_assoc ..),
    Heap.reads_of_keep h.hconfig ConfigField.mem_all hkeep⟩, length_pointers h₃.reads⟩
  rw [ConfigClient.mqttConnectParamsDelete, readParams_eq hp h.hblock]
  simp only [Option.bind_eq_bind, Option.bind_some, hfree, hdrop]

/-- **`tr50_stop`** gives the parameters up. -/
theorem Configured.stop (h : Configured s a) (disconnect : ℤ) :
    ∃ s', s.tr50Stop disconnect = some ((a.call (.stop disconnect)).1, s')
      ∧ Configured s' (a.call (.stop disconnect)).2 := by
  have hcall : a.call (.stop disconnect)
      = if ¬ a.started then (errTr50AlreadyStopped, a)
        else if disconnect ≠ 0 then (disconnect, a)
        else (0, { a with
          params := none
          started := false
          lost := a.lost + a.params.elim 0 fun params =>
            textCount (ConfigSpec.leftText params.text) }) := rfl
  rw [hcall, ConfigClient.tr50Stop, h.started]
  by_cases hup : s.started
  swap
  · rw [if_pos hup, if_pos hup]
    exact ⟨s, rfl, h⟩
  rw [if_neg (not_not.mpr hup), if_neg (not_not.mpr hup)]
  by_cases hfail : disconnect ≠ 0
  · rw [if_pos hfail, if_pos hfail]
    exact ⟨s, rfl, h⟩
  · rw [if_neg hfail, if_neg hfail]
    have hup : a.started = true := h.started.trans hup
    obtain ⟨v, hv⟩ := Option.isSome_iff_exists.mp (h.connected hup)
    obtain ⟨p, params, lost, hp, -, hlost, hshared⟩ := h.shared hv
    obtain ⟨heap, left, hdelete, hholds, hleft⟩ := hshared.delete hp
    refine ⟨{ s with heap, params := none, started := false }, ?_, ⟨h.config, rfl,
      fun h => absurd h Bool.false_ne_true, [], left ++ lost, .null, hholds, ?_⟩⟩
    · rw [hp]
      simp only [hdelete, Option.map_some]
    · simp only [hv, Option.elim_some, List.length_append, hleft, hlost]
      omega

/-- **A good call is a call of the settings**, with the same result. -/
theorem Configured.call (h : Configured s a) {c : ConfigCall} (hgood : a.Good c) (hm : c.Granted) :
    ∃ s', s.call c = some ((a.call c).1, s') ∧ Configured s' (a.call c).2 := by
  have hset : ∀ (f : ConfigField) (granted : Bool) (text : Option (List UInt8)),
      (text = none → a.config.text f = none) →
      ∃ s', (s.setText f granted text).map ((0 : ℤ), ·) = some (0, s')
        ∧ Configured s' (a.setText f granted text) := fun f granted text hnone => by
    obtain ⟨s', hs', h'⟩ := h.setText f granted text hnone
    exact ⟨s', by rw [hs']; rfl, h'⟩
  have hretext := h.config
  cases c with
  | setHost granted host => exact hset .host granted (some host) (by simp)
  | setClientId granted clientId => exact hset .clientId granted (some clientId) (by simp)
  | setUsername granted username =>
    refine hset .username granted username fun hnone => ?_
    subst hnone
    exact hgood
  | setPassword granted password =>
    refine hset .password granted password fun hnone => ?_
    subst hnone
    exact hgood
  | setProxy malloc type addr username password =>
    obtain ⟨s', hs', h'⟩ := h.setProxy malloc type addr username password
    exact ⟨s', by rw [ConfigClient.call, hs']; rfl, h'⟩
  | setPort port =>
    exact ⟨_, rfl, h.numbers { s.config with port } { a.config with port } rfl rfl
      (by rw [hretext]; rfl)⟩
  | setKeeplive keepaliveInMs =>
    exact ⟨_, rfl, h.numbers { s.config with keepaliveInMs } { a.config with keepaliveInMs } rfl rfl
      (by rw [hretext]; rfl)⟩
  | setTimeout timeoutInMs =>
    exact ⟨_, rfl, h.numbers { s.config with timeoutInMs } { a.config with timeoutInMs } rfl rfl
      (by rw [hretext]; rfl)⟩
  | setSsl enabled =>
    exact ⟨_, rfl, h.numbers { s.config with ssl := enabled } { a.config with ssl := enabled } rfl
      rfl (by rw [hretext]; rfl)⟩
  | setHttpsProxy enabled =>
    exact ⟨_, rfl, h.numbers { s.config with httpsProxy := enabled }
      { a.config with httpsProxy := enabled } rfl rfl (by rw [hretext]; rfl)⟩
  | setCompress supported enabled =>
    cases supported with
    | true =>
      exact ⟨_, rfl, h.numbers { s.config with compress := enabled }
        { a.config with compress := enabled } rfl rfl (by rw [hretext]; rfl)⟩
    | false => exact ⟨s, rfl, h⟩
  | start malloc meets connect =>
    by_cases hup : a.started
    · refine ⟨s, ?_, ?_⟩
      · rw [ConfigClient.call, ConfigClient.tr50Start2, if_pos (h.started ▸ hup), ConfigSpec.call,
          if_pos hup]
      · rw [ConfigSpec.call, if_pos hup]
        exact h
    · obtain ⟨hclientId, hhost, hmeets⟩ := hgood.resolve_left hup
      have hdown := Bool.eq_false_iff.mpr hup
      obtain ⟨s', hs', h'⟩ := h.start hdown hm hclientId hhost hmeets connect
      refine ⟨s', ?_, h'⟩
      rw [ConfigClient.call, hs', ConfigSpec.call, if_neg hup]
  | stop disconnect => exact h.stop disconnect
  | reconnect meets =>
    refine ⟨s, ?_, h⟩
    change (if s.started then (s.mqttConnectReads meets).map ((0 : ℤ), ·) else some (0, s))
      = some (0, s)
    split_ifs with hup
    · have hup : a.started := h.started.trans hup
      obtain ⟨v, hv⟩ := Option.isSome_iff_exists.mp (h.connected hup)
      obtain ⟨_, hconnects⟩ := Option.isSome_iff_exists.mp (hgood hup v hv)
      rw [h.connectReads hv, hconnects]
      rfl
    · rfl

theorem Configured.run (h : Configured s a) {calls : List ConfigCall} (hgood : a.GoodRun calls)
    (hm : ∀ c ∈ calls, c.Granted) :
    ∃ s', s.run calls = some s' ∧ Configured s' (a.run calls) := by
  induction calls generalizing s a with
  | nil => exact ⟨s, rfl, h⟩
  | cons c calls ih =>
    obtain ⟨s₁, hs₁, h₁⟩ := h.call hgood.1 (hm c List.mem_cons_self)
    obtain ⟨s₂, hs₂, h₂⟩ := ih h₁ hgood.2 fun c hc => hm c (List.mem_cons_of_mem _ hc)
    refine ⟨s₂, ?_, h₂⟩
    rw [ConfigClient.run, List.foldlM_cons, hs₁]
    exact hs₂

end Tr50
