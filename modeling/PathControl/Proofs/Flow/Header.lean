/-
  PathControl/Proofs/Flow/Header.lean
  ===================================
  **Which header fields tell flows apart.**

  The Ethernet type says which fields identify a flow: the hardware addresses, or for
  IPv4 the addresses, the protocol and, for TCP and UDP, the ports of that protocol.
  Headers that agree in these name the same flow, or lack the same field
  (`Agree.flow_eq`), and headers that name the same key agree (`Names.agree`). So two
  headers name the same flow exactly if they agree (`flow_eq_iff_agree`).
-/
import PathControl.Flow.Header
import PathControl.Proofs.Result

namespace PathControl

/-- The steps that the priority of a flow grows by for its key. -/
def FlowKey.steps : FlowKey → Nat
  | ethernet .. => 0
  | ipv4 _ _ proto _ _ => Header.stepsOf proto

namespace Header

variable {h h' : Header} {s : PriorityScheme} {f g : Flow} {key : FlowKey}

/-! ### Agreement -/

/-- Two headers agree in the ports of a protocol, if it has ports. -/
def AgreeOnPorts (h h' : Header) (proto : Option UInt8) : Prop :=
  (proto = some protoTcp → h.tcpSrc = h'.tcpSrc ∧ h.tcpDst = h'.tcpDst) ∧
    (proto = some protoUdp → h.udpSrc = h'.udpSrc ∧ h.udpDst = h'.udpDst)

/-- Two headers agree in the fields that identify a flow, whatever the others hold. -/
def Agree (h h' : Header) : Prop :=
  h.ethType = h'.ethType ∧
    if h.ethType = some ethTypeIpv4 then
      h.ipv4Src = h'.ipv4Src ∧ h.ipv4Dst = h'.ipv4Dst ∧ h.ipProto = h'.ipProto ∧
        h.AgreeOnPorts h' h.ipProto
    else h.ethSrc = h'.ethSrc ∧ h.ethDst = h'.ethDst

instance (h h' : Header) : Decidable (h.Agree h') :=
  inferInstanceAs (Decidable (_ ∧ ite _ (_ ∧ _ ∧ _ ∧ (_ → _) ∧ (_ → _)) _))

theorem agree_of_ipv4 (ip : h.ethType = some ethTypeIpv4) : h.Agree h' ↔
    h'.ethType = some ethTypeIpv4 ∧ h.ipv4Src = h'.ipv4Src ∧ h.ipv4Dst = h'.ipv4Dst ∧
      h.ipProto = h'.ipProto ∧ h.AgreeOnPorts h' h.ipProto := by
  simp only [Agree]
  rw [if_pos ip, ip, eq_comm]

theorem agree_of_ne (other : h.ethType ≠ some ethTypeIpv4) : h.Agree h' ↔
    h.ethType = h'.ethType ∧ h.ethSrc = h'.ethSrc ∧ h.ethDst = h'.ethDst := by
  simp only [Agree]
  rw [if_neg other]

/-! ### Nothing else is looked at -/

theorem AgreeOnPorts.ports_eq {proto : UInt8} (a : h.AgreeOnPorts h' (some proto)) :
    h.ports proto = h'.ports proto := by
  simp only [ports]
  by_cases tcp : proto = protoTcp
  · obtain ⟨src, dst⟩ := a.1 (congrArg some tcp)
    rw [if_pos tcp, if_pos tcp, src, dst]
  · rw [if_neg tcp, if_neg tcp]
    by_cases udp : proto = protoUdp
    · obtain ⟨src, dst⟩ := a.2 (congrArg some udp)
      rw [if_pos udp, if_pos udp, src, dst]
    · rw [if_neg udp, if_neg udp]

/-- **Headers that agree name the same flow**, or lack the same field. -/
theorem Agree.flow_eq (a : h.Agree h') (s : PriorityScheme) : h.flow s = h'.flow s := by
  simp only [flow]
  rw [← a.1]
  cases hasType : h.ethType with
  | none => rfl
  | some ethType =>
    change (if ethType = ethTypeIpv4 then _ else _) = (if ethType = ethTypeIpv4 then _ else _)
    by_cases ip : ethType = ethTypeIpv4
    · rw [if_pos ip, if_pos ip]
      obtain ⟨_, src, dst, proto, ports⟩ := (agree_of_ipv4 (hasType.trans (congrArg some ip))).1 a
      rw [← src, ← dst, ← proto]
      -- the first field that is missing decides, so the ports only count if there is none
      cases h.ipv4Src with
      | none => rfl
      | some src =>
        cases h.ipv4Dst with
        | none => rfl
        | some dst =>
          cases hasProto : h.ipProto with
          | none => rfl
          | some proto =>
            rw [hasProto] at ports
            change h.ports proto >>= _ = h'.ports proto >>= _
            rw [ports.ports_eq]
    · rw [if_neg ip, if_neg ip]
      have other : h.ethType ≠ some ethTypeIpv4 := by
        rw [hasType]
        intro same
        exact ip (Option.some.inj same)
      obtain ⟨_, src, dst⟩ := (agree_of_ne other).1 a
      rw [src, dst]

/-! ### What a header names -/

theorem require_eq_ok_iff {α : Type} {name : HeaderField} {o : Option α} {a : α} :
    require name o = .ok a ↔ o = some a := by
  cases o <;> simp [require]

theorem ports_eq_ok_iff {proto : UInt8} {src dst : UInt16} : h.ports proto = .ok (src, dst) ↔
    proto = protoTcp ∧ h.tcpSrc = some src ∧ h.tcpDst = some dst ∨
      proto = protoUdp ∧ h.udpSrc = some src ∧ h.udpDst = some dst ∨
        proto ≠ protoTcp ∧ proto ≠ protoUdp ∧ src = 0 ∧ dst = 0 := by
  have apart : protoTcp ≠ protoUdp := by decide
  simp only [ports]
  by_cases tcp : proto = protoTcp
  · subst tcp
    simp [apart, bind_eq_ok_iff, require_eq_ok_iff, pure, Except.pure]
  · rw [if_neg tcp]
    by_cases udp : proto = protoUdp
    · subst udp
      simp [apart.symm, bind_eq_ok_iff, require_eq_ok_iff, pure, Except.pure]
    · simp [tcp, udp, pure, Except.pure, eq_comm]

/-- The key that a header names. -/
inductive Names (h : Header) : FlowKey → Prop where
  | ethernet {ethType src dst} (other : ethType ≠ ethTypeIpv4) (hasType : h.ethType = some ethType)
      (hasSrc : h.ethSrc = some src) (hasDst : h.ethDst = some dst) :
      Names h (.ethernet ethType src dst)
  | ipv4 {src dst proto srcPort dstPort} (hasType : h.ethType = some ethTypeIpv4)
      (hasSrc : h.ipv4Src = some src) (hasDst : h.ipv4Dst = some dst)
      (hasProto : h.ipProto = some proto) (hasPorts : h.ports proto = .ok (srcPort, dstPort)) :
      Names h (.ipv4 src dst proto srcPort dstPort)

/-- The flow of a header is the key that it names, with the priority for such a key. -/
theorem flow_eq_ok_iff :
    h.flow s = .ok f ↔ h.Names f.key ∧ f.priority = s.after f.key.steps := by
  constructor
  · intro named
    obtain ⟨ethType, hasType, named⟩ := bind_eq_ok_iff.1 named
    split at named
    · next ip =>
      subst ip
      obtain ⟨src, hasSrc, named⟩ := bind_eq_ok_iff.1 named
      obtain ⟨dst, hasDst, named⟩ := bind_eq_ok_iff.1 named
      obtain ⟨proto, hasProto, named⟩ := bind_eq_ok_iff.1 named
      obtain ⟨⟨srcPort, dstPort⟩, hasPorts, named⟩ := bind_eq_ok_iff.1 named
      cases named
      rw [require_eq_ok_iff] at hasType hasSrc hasDst hasProto
      exact ⟨.ipv4 hasType hasSrc hasDst hasProto hasPorts, rfl⟩
    · next other =>
      obtain ⟨src, hasSrc, named⟩ := bind_eq_ok_iff.1 named
      obtain ⟨dst, hasDst, named⟩ := bind_eq_ok_iff.1 named
      cases named
      rw [require_eq_ok_iff] at hasType hasSrc hasDst
      exact ⟨.ethernet other hasType hasSrc hasDst, rfl⟩
  · obtain ⟨key, priority⟩ := f
    rintro ⟨named, steps⟩
    dsimp only at named steps
    subst steps
    cases named with
    | ethernet other hasType hasSrc hasDst =>
      apply bind_eq_ok_iff.2
      refine ⟨_, require_eq_ok_iff.2 hasType, ?_⟩
      rw [if_neg other, bind_eq_ok_iff]
      refine ⟨_, require_eq_ok_iff.2 hasSrc, bind_eq_ok_iff.2 ?_⟩
      exact ⟨_, require_eq_ok_iff.2 hasDst, rfl⟩
    | ipv4 hasType hasSrc hasDst hasProto hasPorts =>
      apply bind_eq_ok_iff.2
      refine ⟨_, require_eq_ok_iff.2 hasType, ?_⟩
      rw [if_pos rfl, bind_eq_ok_iff]
      refine ⟨_, require_eq_ok_iff.2 hasSrc, bind_eq_ok_iff.2 ?_⟩
      refine ⟨_, require_eq_ok_iff.2 hasDst, bind_eq_ok_iff.2 ?_⟩
      refine ⟨_, require_eq_ok_iff.2 hasProto, bind_eq_ok_iff.2 ?_⟩
      exact ⟨_, hasPorts, rfl⟩

theorem agreeOnPorts_of_ports {proto : UInt8} {ports : UInt16 × UInt16}
    (known : h.ports proto = .ok ports) (known' : h'.ports proto = .ok ports) :
    h.AgreeOnPorts h' (some proto) := by
  have apart : protoTcp ≠ protoUdp := by decide
  rcases ports_eq_ok_iff.1 known with ⟨rfl, src, dst⟩ | ⟨rfl, src, dst⟩ | ⟨noTcp, noUdp, _⟩
  · rcases ports_eq_ok_iff.1 known' with ⟨_, src', dst'⟩ | ⟨other, _⟩ | ⟨other, _⟩
    · constructor
      · intro _
        exact ⟨src.trans src'.symm, dst.trans dst'.symm⟩
      · intro other
        cases other
    · cases other
    · exact absurd rfl other
  · rcases ports_eq_ok_iff.1 known' with ⟨other, _⟩ | ⟨_, src', dst'⟩ | ⟨_, other, _⟩
    · cases other
    · constructor
      · intro other
        cases other
      · intro _
        exact ⟨src.trans src'.symm, dst.trans dst'.symm⟩
    · exact absurd rfl other
  · constructor
    · intro tcp
      exact absurd (Option.some.inj tcp) noTcp
    · intro udp
      exact absurd (Option.some.inj udp) noUdp

/-- Headers that name the same key agree. -/
theorem Names.agree (named : h.Names key) (named' : h'.Names key) : h.Agree h' := by
  cases named with
  | ethernet other hasType hasSrc hasDst =>
    cases named' with
    | ethernet _ hasType' hasSrc' hasDst' =>
      rw [agree_of_ne (by simpa [hasType] using other), hasType', hasSrc', hasDst']
      exact ⟨hasType, hasSrc, hasDst⟩
  | ipv4 hasType hasSrc hasDst hasProto hasPorts =>
    cases named' with
    | ipv4 hasType' hasSrc' hasDst' hasProto' hasPorts' =>
      rw [agree_of_ipv4 hasType, hasSrc', hasDst', hasProto']
      refine ⟨hasType', hasSrc, hasDst, hasProto, ?_⟩
      rw [hasProto]
      exact agreeOnPorts_of_ports hasPorts hasPorts'

/-- **Two headers name the same flow exactly if they agree** in the fields that identify it. -/
theorem flow_eq_iff_agree (named : h.flow s = .ok f) (named' : h'.flow s = .ok g) :
    f = g ↔ h.Agree h' := by
  constructor
  · rintro rfl
    exact (flow_eq_ok_iff.1 named).1.agree (flow_eq_ok_iff.1 named').1
  · intro agree
    rw [agree.flow_eq s, named'] at named
    exact (Except.ok.inj named).symm

end Header

end PathControl
