/-
  PathControl/Proofs/Simulation/Ring.lean
  =======================================
  **A simulation of a ring is never refused.**

  What a simulation asks of a source of random draws is little: numbers in their
  ranges, and items of the list that they are drawn from (`LawfulRandomSource`). From
  such a source a ring is drawn in which every switch keeps its datapath id and every
  host is linked to its own switch only (`always_randomRing`). So flows can start from
  every host, whichever are drawn, and the program fails for what it reads only
  (`runWith_error_iff`): for its files, and for the number of switches.
-/
import PathControl.CommandLine
import PathControl.Proofs.Simulation
import PathControl.Proofs.Topology.Port

namespace PathControl

/-! ### Sources of draws -/

/-- Something holds of what is drawn, from whatever state of the source. -/
def Always {G α : Type} (P : α → Prop) (x : StateM G α) : Prop := ∀ g, P (x.run g).1

section Always

variable {G α β : Type} {P : β → Prop} {Q : α → Prop} {x : StateM G α} {f : α → StateM G β}

theorem always_pure {b : β} (h : P b) : Always P (pure b : StateM G β) := by
  intro _
  exact h

theorem always_bind (first : Always Q x) (rest : ∀ a, Q a → Always P (f a)) :
    Always P (x >>= f) := by
  intro g
  exact rest _ (first g) _

theorem always_mapM (each : ∀ a, Always P (f a)) (items : List α) :
    Always (fun bs => bs.length = items.length ∧ ∀ b ∈ bs, P b) (items.mapM f) := by
  induction items with
  | nil =>
    apply always_pure
    exact ⟨rfl, fun b hb => absurd hb List.not_mem_nil⟩
  | cons a items ih =>
    rw [List.mapM_cons]
    refine always_bind (each a) ?_
    intro b hb
    refine always_bind ih ?_
    rintro bs ⟨count, hbs⟩
    apply always_pure
    exact ⟨congrArg Nat.succ count, List.forall_mem_cons.2 ⟨hb, hbs⟩⟩

end Always

/-- What sources promise: a number is in its range, an item is drawn unless there is none, and a
    sample takes no place of a list twice and is as large as it can be. -/
class LawfulRandomSource (G : Type) [RandomSource G] : Prop where
  always_number {low high : UInt64} (range : low < high) :
    Always (fun n => low ≤ n ∧ n < high) (RandomSource.number low high : StateM G UInt64)
  always_item {α : Type} {items : List α} (some_item : items ≠ []) :
    Always (fun drawn => ∃ a ∈ items, drawn = some a)
      (RandomSource.item items : StateM G (Option α))
  always_sample {α : Type} (count : Nat) (items : List α) :
    Always (fun drawn => drawn.Subperm items ∧ drawn.length = min count items.length)
      (RandomSource.sample count items : StateM G (List α))

/-! ### The standard generator -/

theorem always_drawNumber {low high : Nat} (range : low < high) :
    Always (fun n => low ≤ n ∧ n < high) (drawNumber low high) := by
  intro g
  have order : ¬ low > high - 1 := by omega
  change low ≤ (randNat g low (max low (high - 1))).1 ∧
    (randNat g low (max low (high - 1))).1 < high
  rw [Nat.max_eq_right (Nat.le_of_not_lt order), randNat]
  simp only [if_neg order]
  refine ⟨Nat.le_add_right low _, ?_⟩
  calc low + _ % (high - 1 - low + 1)
      < low + (high - 1 - low + 1) := Nat.add_lt_add_left (Nat.mod_lt _ (Nat.succ_pos _)) low
    _ = high := by omega

theorem always_drawSample {α : Type} (count : Nat) (items : List α) :
    Always (fun drawn => drawn.Subperm items ∧ drawn.length = min count items.length)
      (drawSample count items) := by
  induction count generalizing items with
  | zero => exact always_pure ⟨List.nil_subperm, (Nat.zero_min _).symm⟩
  | succ count ih =>
    rcases items with _ | ⟨a, items⟩
    · exact always_pure ⟨List.nil_subperm, rfl⟩
    refine always_bind (always_drawNumber (Nat.succ_pos items.length)) ?_
    rintro i ⟨_, hi⟩
    have hi : i < (a :: items).length := hi
    refine always_bind (ih ((a :: items).eraseIdx i)) ?_
    rintro drawn ⟨part, size⟩
    apply always_pure
    rw [List.getElem?_eq_getElem hi, Option.toList_some, List.singleton_append]
    refine ⟨?_, ?_⟩
    · exact ((List.subperm_cons _).2 part).trans (List.getElem_cons_eraseIdx_perm hi).subperm
    · rw [List.length_cons, size, List.length_eraseIdx_of_lt hi]
      simp only [List.length_cons]
      omega

/-- The generator of the standard library is such a source. -/
instance : LawfulRandomSource StdGen where
  always_number {low high} range := by
    refine always_bind (always_drawNumber (UInt64.lt_iff_toNat_lt.1 range)) ?_
    rintro n ⟨least, most⟩
    apply always_pure
    rw [UInt64.le_iff_toNat_le, UInt64.lt_iff_toNat_lt,
      UInt64.toNat_ofNat_of_lt' (Nat.lt_trans most high.toNat_lt)]
    exact ⟨least, most⟩
  always_item {α items} some_item := by
    refine always_bind (always_drawNumber (List.length_pos_iff.2 some_item)) ?_
    rintro i ⟨_, inside⟩
    apply always_pure
    exact ⟨items[i], List.getElem_mem inside, List.getElem?_eq_getElem inside⟩
  always_sample := always_drawSample

/-! ### Draws for a plan -/

variable {G : Type} [RandomSource G] [LawfulRandomSource G]

open LawfulRandomSource

/-- **A source gives a plan draws that it can have.** -/
theorem SimulationPlan.canDraw_draw (p : SimulationPlan) :
    Always p.CanDraw (p.draw : StateM G SimulationDraws) := by
  have long : (1 : UInt64) < max p.duration 2 := by
    change 1 < if p.duration ≤ 2 then 2 else p.duration
    split
    · decide
    · next above => exact UInt64.lt_trans (by decide) (UInt64.not_le.1 above)
  have flow : Always (fun f : FlowDraw => (f.ends.Subperm p.topology.hosts ∧
      f.ends.length = min 2 p.topology.hosts.length) ∧
      (1 ≤ f.start ∧ f.start < max p.duration 2) ∧ 60 ≤ f.lifetime ∧ f.lifetime < 600)
      (p.drawFlow : StateM G FlowDraw) := by
    refine always_bind (always_sample 2 p.topology.hosts) ?_
    intro ends hends
    refine always_bind (always_number long) ?_
    intro start hstart
    refine always_bind (always_number (by decide)) ?_
    intro lifetime hlifetime
    exact always_pure ⟨hends, hstart, hlifetime⟩
  refine always_bind (always_sample p.hot p.topology.switches) ?_
  intro hot hhot
  refine always_bind (always_mapM (fun _ => flow) _) ?_
  rintro flows ⟨count, each⟩
  exact always_pure ⟨hhot, count.trans List.length_range, fun f hf => (each f hf).1,
    fun f hf => (each f hf).2.1, fun f hf => (each f hf).2.2⟩

/-! ### Building a ring -/

namespace Topology

variable {t : Topology} {n k a b : Nat}

theorem nodes_addLink (t : Topology) (a b : NodeId) : (t.addLink a b).nodes = t.nodes := by
  simp only [addLink]
  split <;> rfl

theorem linked_addLink_iff {x y : Nat} (ha : t.contains a = true) (hb : t.contains b = true) :
    (t.addLink a b).linked x y = true ↔
      t.linked x y = true ∨ a = x ∧ b = y ∨ a = y ∧ b = x := by
  rw [linked_iff, linked_iff, (addLink_eq ha hb).1, List.exists_mem_cons_iff, or_comm]
  rfl

/-- A network under construction: a number of switches with their datapath ids, and hosts, each of
    which has an address and is linked to the switch of its number only. -/
structure Ring (n k : Nat) (t : Topology) : Prop where
  size : t.nodes.size = n + k
  switch : ∀ i < n, ∃ s, t.switch? i = some s ∧ s.dpid = UInt64.ofNat (i + 1)
  host : ∀ i < k, ∃ h, t.host? (n + i) = some h ∧ h.ip.isSome
  attached : ∀ i < k, ∀ m : Nat, t.linked (n + i) m = true ↔ m = i

theorem getElem?_addNode_of_lt {node : Node} {i : Nat} (before : i < t.nodes.size) :
    (t.addNode node).nodes[i]? = t.nodes[i]? := by
  simp only [addNode]
  rw [Array.getElem?_push_lt before, Array.getElem?_eq_getElem before]

namespace Ring

theorem empty : Ring 0 0 Topology.empty := ⟨rfl, by simp, by simp, by simp⟩

theorem contains_iff (ring : Ring n k t) : t.contains a = true ↔ a < n + k := by
  rw [Topology.contains, decide_eq_true_eq, ring.size]

theorem addSwitch (ring : Ring n 0 t) (name : String) :
    Ring (n + 1) 0 (t.addSwitch name (UInt64.ofNat (n + 1))) := by
  have size : t.nodes.size = n := ring.size
  refine ⟨by simp [Topology.addSwitch, addNode, size], ?_, by simp, by simp⟩
  intro i hi
  rcases Nat.lt_succ_iff_lt_or_eq.1 hi with before | rfl
  · obtain ⟨s, known, id⟩ := ring.switch i before
    refine ⟨s, ?_, id⟩
    rw [← known]
    simp only [switch?, Topology.addSwitch]
    rw [getElem?_addNode_of_lt (size ▸ before)]
  · refine ⟨⟨name, UInt64.ofNat (i + 1)⟩, ?_, rfl⟩
    simp [switch?, Topology.addSwitch, addNode, ← size, Node.switch?]

theorem addLink (ring : Ring n k t) (ha : a < n) (hb : b < n) : Ring n k (t.addLink a b) := by
  refine ⟨by rw [nodes_addLink, ring.size], ?_, ?_, ?_⟩
  · simpa only [switch?, nodes_addLink] using ring.switch
  · simpa only [host?, nodes_addLink] using ring.host
  · intro i hi m
    rw [linked_addLink_iff (ring.contains_iff.2 (by omega)) (ring.contains_iff.2 (by omega)),
      ring.attached i hi]
    omega

theorem addHost (ring : Ring n k t) (next : k < n) (name : String) (ip : Ipv4Address)
    (mac : MacAddress) : Ring n (k + 1) ((t.addHost name (some ip) mac).addLink t.size k) := by
  have size : t.size = n + k := ring.size
  have kept {i : Nat} (before : i < n + k) :
      (t.addHost name (some ip) mac).nodes[i]? = t.nodes[i]? :=
    getElem?_addNode_of_lt (ring.size ▸ before)
  have last : (t.addHost name (some ip) mac).nodes.size = n + k + 1 := by
    simp [Topology.addHost, addNode, ring.size]
  refine ⟨by rw [nodes_addLink, last, Nat.add_assoc], ?_, ?_, ?_⟩
  · intro i hi
    simp only [switch?, nodes_addLink]
    rw [kept (by omega)]
    exact ring.switch i hi
  · intro i hi
    simp only [host?, nodes_addLink]
    rcases Nat.lt_succ_iff_lt_or_eq.1 hi with before | rfl
    · rw [kept (by omega)]
      exact ring.host i before
    · refine ⟨⟨name, some ip, mac⟩, ?_, rfl⟩
      simp [Topology.addHost, addNode, ← ring.size, Node.host?]
  · intro i hi m
    have isNew : t.linked (n + k) m = false := by
      rw [Bool.eq_false_iff]
      intro linked
      exact Nat.lt_irrefl _ (ring.contains_iff.1 (contains_of_linked (linked_symm linked)))
    have ends : (t.addHost name (some ip) mac).contains t.size = true ∧
        (t.addHost name (some ip) mac).contains k = true := by
      have older : k < n + k := Nat.lt_of_lt_of_le next (Nat.le_add_right n k)
      simp only [Topology.contains, last, size, decide_eq_true_eq]
      exact ⟨Nat.lt_succ_self _, Nat.lt_succ_of_lt older⟩
    rw [linked_addLink_iff ends.1 ends.2, size]
    change t.linked (n + i) m = true ∨ _ ↔ _
    rcases Nat.lt_succ_iff_lt_or_eq.1 hi with before | rfl
    · rw [ring.attached i before]
      omega
    · simp only [isNew, Bool.false_eq_true, false_or, true_and]
      omega

theorem isSwitch_iff (ring : Ring n n t) {i : Nat} : t.isSwitch i = true ↔ i < n := by
  constructor
  · intro here
    have inside := ring.contains_iff.1 (contains_of_isSwitch here)
    by_contra above
    obtain ⟨h, known, _⟩ := ring.host (i - n) (by omega)
    rw [Nat.add_sub_cancel' (Nat.le_of_not_lt above)] at known
    have isHost : t.isHost i = true := Option.isSome_iff_exists.2 ⟨h, known⟩
    rw [isSwitch_eq_false isHost] at here
    cases here
  · intro before
    obtain ⟨s, known, _⟩ := ring.switch i before
    exact Option.isSome_iff_exists.2 ⟨s, known⟩

theorem isHost_iff (ring : Ring n n t) {m : Nat} :
    t.isHost m = true ↔ ∃ i < n, m = n + i := by
  constructor
  · intro here
    have inside := ring.contains_iff.1 (contains_of_isHost here)
    have notSwitch : ¬ m < n := by
      rw [← ring.isSwitch_iff, isSwitch_eq_false here]
      simp
    exact ⟨m - n, by omega, by omega⟩
  · rintro ⟨i, hi, rfl⟩
    obtain ⟨h, known, _⟩ := ring.host i hi
    exact Option.isSome_iff_exists.2 ⟨h, known⟩

/-- The datapath ids of a ring do not wrap around. -/
theorem exists_dpid? (ring : Ring n n t) (few : n ≤ mostSwitches) {i : Nat} (hi : i < n) :
    ∃ dpid, t.dpid? i = some dpid := by
  have few : n ≤ 254 := few
  apply DistinctIds.exists_dpid? _ (ring.isSwitch_iff.2 hi)
  intro j hj l hl same
  have hj := ring.isSwitch_iff.1 (mem_switches_iff.1 hj)
  have hl := ring.isSwitch_iff.1 (mem_switches_iff.1 hl)
  obtain ⟨s, known, id⟩ := ring.switch j hj
  obtain ⟨s', known', id'⟩ := ring.switch l hl
  rw [known, known', Option.map_some, Option.map_some, Option.some_inj, id, id',
    ← UInt64.toNat_inj, UInt64.toNat_ofNat_of_lt', UInt64.toNat_ofNat_of_lt'] at same
  · exact Nat.succ_injective same
  · exact Nat.lt_of_le_of_lt (Nat.succ_le_of_lt hl) (Nat.lt_of_le_of_lt few (by decide))
  · exact Nat.lt_of_le_of_lt (Nat.succ_le_of_lt hj) (Nat.lt_of_le_of_lt few (by decide))

theorem attached_host (ring : Ring n n t) (few : n ≤ mostSwitches) {i : Nat} (hi : i < n) :
    t.Attached (n + i) := by
  obtain ⟨h, known, addressed⟩ := ring.host i hi
  refine ⟨?_, i, ?_, Option.isSome_iff_exists.2 (ring.exists_dpid? few hi)⟩
  · rwa [known]
  -- only its own switch can come first among the neighbours
  · have own : i ∈ t.neighbors (n + i) :=
      (t.mem_neighbors_iff _ _).2 ((ring.attached i hi i).2 rfl)
    obtain ⟨m, rest, first⟩ := List.exists_cons_of_ne_nil (List.ne_nil_of_mem own)
    have linked := (t.mem_neighbors_iff (n + i) m).1 (first ▸ List.mem_cons_self)
    rw [first, List.head?_cons, (ring.attached i hi m).1 linked]

/-- **Flows can start from every host of a finished ring.** -/
theorem ready {p : SimulationPlan} (ring : Ring n n p.topology) (enough : fewestSwitches ≤ n)
    (few : n ≤ mostSwitches) : p.Ready := by
  have enough : 3 ≤ n := enough
  refine ⟨?_, .inr ?_, ?_⟩
  · intro i hi
    exact Option.isSome_iff_exists.2
      (ring.exists_dpid? few (ring.isSwitch_iff.1 (mem_switches_iff.1 hi)))
  · have hosts : [n + 0, n + 1] ⊆ p.topology.hosts := by
      intro m hm
      rw [mem_hosts_iff, ring.isHost_iff]
      rcases List.mem_pair.1 hm with rfl | rfl
      · exact ⟨0, by omega, rfl⟩
      · exact ⟨1, by omega, rfl⟩
    exact (List.Nodup.subperm (by simp) hosts).length_le
  · intro m hm
    obtain ⟨i, hi, rfl⟩ := ring.isHost_iff.1 (mem_hosts_iff.1 hm)
    exact ring.attached_host few hi

end Ring

theorem ring_ringOfSwitches (positive : 0 < n) : Ring n 0 (ringOfSwitches n) := by
  have switches : ∀ n, Ring n 0 ((List.range n).foldl
      (fun t i => t.addSwitch s!"s{decimal i}" (UInt64.ofNat (i + 1))) Topology.empty) := by
    intro n
    induction n with
    | zero => exact .empty
    | succ n ih =>
      rw [List.range_succ, List.foldl_concat]
      exact ih.addSwitch _
  refine List.foldlRecOn _ _ (switches n) ?_
  intro t ring i hi
  exact ring.addLink (List.mem_range.1 hi) (Nat.mod_lt _ positive)

theorem Ring.addHosts (ring : Ring n 0 t) : Ring n n (addHosts n t) := by
  have hosts : ∀ k ≤ n, Ring n k ((List.range k).foldl (fun t i =>
      (t.addHost s!"h{decimal i}" (some (.ofOctets 10 0 0 (UInt8.ofNat (i + 1))))
        (.ofWord (UInt64.ofNat (i + 1)))).addLink t.size i) t) := by
    intro k hk
    induction k with
    | zero => exact ring
    | succ k ih =>
      rw [List.range_succ, List.foldl_concat]
      exact (ih (by omega)).addHost hk _ _ _
  exact hosts n (Nat.le_refl n)

theorem always_addChords {switches : List NodeId} (inside : ∀ a ∈ switches, a < n)
    (some_switch : switches ≠ []) (attempts missing : Nat) (ring : Ring n 0 t) :
    Always (fun result => ∃ t', result = .ok t' ∧ Ring n 0 t')
      (addChords switches attempts missing t : StateM G (Except SimulationError Topology)) := by
  induction attempts generalizing missing t with
  | zero => exact always_pure ⟨t, rfl, ring⟩
  | succ attempts ih =>
    rcases missing with _ | missing
    · exact always_pure ⟨t, rfl, ring⟩
    refine always_bind (always_item some_switch) ?_
    rintro _ ⟨a, ha, rfl⟩
    refine always_bind (always_item some_switch) ?_
    rintro _ ⟨b, hb, rfl⟩
    dsimp only
    split
    · exact ih missing (ring.addLink (inside a ha) (inside b hb))
    · exact ih (missing + 1) ring

end Topology

open Topology

/-- **A ring is drawn if its number of switches is in range.** -/
theorem always_randomRing {n : UInt8} (enough : fewestSwitches ≤ n.toNat)
    (few : n.toNat ≤ mostSwitches) (chords : UInt64) :
    Always (fun result => ∃ t, result = .ok t ∧ Ring n.toNat n.toNat t)
      (randomRing n chords : StateM G (Except SimulationError Topology)) := by
  have positive : 0 < n.toNat := Nat.lt_of_lt_of_le (by decide) enough
  have some_switch : List.range n.toNat ≠ [] := by
    rw [Ne, List.range_eq_nil]
    omega
  rw [randomRing, if_neg (by omega)]
  refine always_bind (always_addChords (fun a => List.mem_range.1) some_switch _ _
    (ring_ringOfSwitches positive)) ?_
  rintro _ ⟨t, rfl, ring⟩
  exact always_pure ⟨_, rfl, ring.addHosts⟩

/-! ### The program -/

namespace SimulationOptions

variable {o : SimulationOptions} {read : String → Option String}

/-- Settings that are read have passed their check. -/
theorem check_of_readSettings {settings : Settings} (h : o.readSettings read = .ok settings) :
    settings.check = .ok () := by
  simp only [readSettings] at h
  split at h
  · next file _ =>
    rw [mapError_eq_ok_iff] at h
    rcases text : read file with _ | text
    · rw [text] at h
      cases h
    · rw [text] at h
      simp only [Settings.load, Settings.ofToml] at h
      split at h
      · cases h
      · obtain ⟨_, accepted, made⟩ := bind_eq_ok_iff.1 h
        cases made
        exact accepted
  · cases h
    rfl

/-- Whether a forecast can be read does not depend on the network. -/
theorem readForecast_error_iff (t t' : Topology) :
    (∃ e, o.readForecast read t = .error e) ↔ ∃ e, o.readForecast read t' = .error e := by
  simp only [readForecast]
  split
  · exact Iff.rfl
  · simp

theorem simulateNamed_error_iff {p : SimulationPlan} {d : SimulationDraws}
    (accepted : p.settings.check = .ok ()) :
    (∃ e, o.simulateNamed p d = .error e) ↔ ¬ p.Admits d := by
  have each {W : Type} [Weight W] (metric : Metric W) :
      (∃ e, simulate metric p d = .error e) ↔ ¬ p.Admits d := by
    rw [← Simulation.exists_run_error_iff metric accepted, simulate]
    cases Simulation.run metric p d with
    | error e => exact iff_of_true ⟨e, rfl⟩ ⟨e, rfl⟩
    | ok s => exact iff_of_false (by rintro ⟨e, ⟨⟩⟩) (by rintro ⟨e, ⟨⟩⟩)
  rw [simulateNamed]
  cases o.metric <;> exact each _

/-- **The program fails exactly for what it reads**, whatever is drawn: for the settings, for the
    number of switches, or for the forecast. -/
theorem runWith_error_iff (o : SimulationOptions) (seeded : UInt64 → G)
    (read : String → Option String) :
    (∃ e, o.runWith seeded read = .error e) ↔
      (∃ e, o.readSettings read = .error e) ∨
      ¬ (fewestSwitches ≤ o.switches.toNat ∧ o.switches.toNat ≤ mostSwitches) ∨
      ∃ e, o.readForecast read .empty = .error e := by
  rw [runWith]
  rcases found : o.readSettings read with e | settings
  · exact iff_of_true ⟨e, rfl⟩ (.inl ⟨e, rfl⟩)
  have accepted := check_of_readSettings found
  by_cases size : fewestSwitches ≤ o.switches.toNat ∧ o.switches.toNat ≤ mostSwitches
  · obtain ⟨t, drawn, ring⟩ := always_randomRing size.1 size.2 o.chords (seeded o.seed)
    rcases ran : (randomRing o.switches o.chords).run (seeded o.seed) with ⟨result, source⟩
    rw [ran] at drawn
    obtain rfl : result = .ok t := drawn
    rw [readForecast_error_iff .empty t]
    rcases forecastRead : o.readForecast read t with e | forecast
    · refine iff_of_true ⟨e, ?_⟩ (.inr (.inr ⟨e, rfl⟩))
      change (o.readForecast read t >>= _) = _
      rw [forecastRead]
      rfl
    · let plan : SimulationPlan :=
        { topology := t, settings, forecast, flows := o.flows.toNat, hot := o.hot.toNat
          duration := o.duration }
      have ready : plan.Ready := ring.ready size.1 size.2
      have admits := ready.admits (plan.canDraw_draw source)
      have never : ¬ ∃ e, o.simulateNamed plan (plan.draw.run source).1 = .error e := by
        rw [simulateNamed_error_iff accepted]
        exact not_not_intro admits
      change (∃ e, (o.readForecast read t >>= fun forecast => o.simulateNamed
        { plan with forecast } (SimulationPlan.draw { plan with forecast } |>.run source).1) =
          .error e) ↔ _
      rw [forecastRead]
      exact iff_of_false never (by simp [size])
  · have out : o.switches.toNat < fewestSwitches ∨ mostSwitches < o.switches.toNat := by omega
    refine iff_of_true ⟨.ringSize o.switches, ?_⟩ (.inr (.inl size))
    rw [randomRing, if_pos out]
    rfl

end SimulationOptions

end PathControl
