/-
# A proxy that is among its own peers

A proxy that passed its stream on to itself would do so without end, so the
peers at its own port whose host is this one are left out. A host is this one if
it is `localhost`, or if its address, a mapped one read as version 4, is a
loopback address, no particular one, or one of the host's own. A mapped address
is looked at as it stands, and as such it is neither loopback nor unspecified:
the peers that stay are the right ones exactly if such an address is given as
the host's own just when the version 4 address is this host's
(`ProxyConfig.peers_removeSelfPeers_iff`).

Key definitions: `IpAddress.IsOf`, `PeerAddress.NamesSelf`.
Key theorems: `PeerAddress.isLocal_iff`, `PeerAddress.isLocal_iff_namesSelf_iff`,
`PeerAddress.namesSelf_of_isLocal`, `ProxyConfig.peers_removeSelfPeers_iff`.
-/
import Mathlib.Logic.Basic
import Raop.Config.Proxy

namespace Raop

namespace IpAddress

variable {ip : IpAddress} {low : BitVec 32} {own : List IpAddress}

/-- The address is one of the host that has these addresses. -/
def IsOf (own : List IpAddress) (ip : IpAddress) : Prop :=
  ip.isLoopback = true ∨ ip.isUnspecified = true ∨ ip ∈ own

instance (own : List IpAddress) (ip : IpAddress) : Decidable (ip.IsOf own) :=
  inferInstanceAs (Decidable (_ ∨ _))

theorem canonical_of_mapped (h : ip.mapped? = some low) : ip.canonical = v4 low := by
  rw [canonical, h]

theorem canonical_of_not_mapped (h : ip.mapped? = none) : ip.canonical = ip := by
  rw [canonical, h]

/-- A mapped address is one of the host only if it is given as such. -/
theorem isOf_of_mapped (h : ip.mapped? = some low) : ip.IsOf own ↔ ip ∈ own := by
  cases ip with
  | v4 bits => cases h
  | v6 bits =>
    by_cases hmapped : bits.toNat / 4294967296 = 0xFFFF
    · have hloopback : ¬(v6 bits).isLoopback = true := by
        simp only [isLoopback, decide_eq_true_eq]
        omega
      have hunspecified : ¬(v6 bits).isUnspecified = true := by
        simp only [isUnspecified, decide_eq_true_eq]
        omega
      rw [IsOf, or_iff_right hloopback, or_iff_right hunspecified]
    · rw [mapped?, if_neg hmapped] at h
      cases h

end IpAddress

namespace PeerAddress

variable {p : PeerAddress} {port : UInt16} {own : List IpAddress}

/-- The host is called by the name that every host has for itself. -/
def IsLocalhost (p : PeerAddress) : Prop := p.host.toList.map Char.toLower = "localhost".toList

instance (p : PeerAddress) : Decidable p.IsLocalhost := inferInstanceAs (Decidable (_ = _))

/-- The peer is the given port of the host that has these addresses. -/
def NamesSelf (p : PeerAddress) (port : UInt16) (own : List IpAddress) : Prop :=
  p.port = port ∧ (p.IsLocalhost ∨ ∃ ip ∈ p.ip?, ip.canonical.IsOf own)

instance (p : PeerAddress) (port : UInt16) (own : List IpAddress) : Decidable (p.NamesSelf port own) :=
  inferInstanceAs (Decidable (_ ∧ _))

/-- What is looked at is the address as it stands. -/
theorem isLocal_iff : p.isLocal port own = true ↔
    p.port = port ∧ (p.IsLocalhost ∨ ∃ ip ∈ p.ip?, ip.IsOf own) := by
  rw [isLocal, Bool.and_eq_true, decide_eq_true_eq, Bool.or_eq_true, decide_eq_true_eq]
  refine and_congr_right fun _ => or_congr_right ?_
  cases p.ip? with
  | none => simp
  | some ip => simp [IpAddress.IsOf, or_assoc]

/-- **What is looked at tells what is meant** unless the peer is at the port and its host is a mapped
address. -/
theorem isLocal_iff_namesSelf_iff : (p.isLocal port own = true ↔ p.NamesSelf port own) ↔
    (p.port = port → ¬p.IsLocalhost → ∀ ip ∈ p.ip?, ∀ low ∈ ip.mapped?,
      (ip ∈ own ↔ (IpAddress.v4 low).IsOf own)) := by
  rw [isLocal_iff, NamesSelf]
  by_cases hport : p.port = port
  · by_cases hlocalhost : p.IsLocalhost
    · simp only [hport, hlocalhost, true_or, not_true, false_implies, implies_true]
    · simp only [hport, hlocalhost, true_and, false_or, not_false_eq_true, true_implies]
      cases hip : p.ip? with
      | none => simp
      | some ip =>
        simp only [Option.mem_some_iff, exists_eq_left', forall_eq']
        cases hmapped : ip.mapped? with
        | none => simp [IpAddress.canonical_of_not_mapped hmapped]
        | some low =>
          rw [IpAddress.canonical_of_mapped hmapped, IpAddress.isOf_of_mapped hmapped]
          simp
  · simp only [hport, false_and, false_implies]

/-- With no mapped address among the host's own, only peers that are the proxy itself are left out. -/
theorem namesSelf_of_isLocal (hown : ∀ ip ∈ own, ip.mapped? = none) (h : p.isLocal port own = true) :
    p.NamesSelf port own := by
  obtain ⟨hport, hlocalhost | ⟨ip, hip, hof⟩⟩ := isLocal_iff.1 h
  · exact ⟨hport, Or.inl hlocalhost⟩
  · refine ⟨hport, Or.inr ⟨ip, hip, ?_⟩⟩
    cases hmapped : ip.mapped? with
    | none => rwa [IpAddress.canonical_of_not_mapped hmapped]
    | some low =>
      rw [IpAddress.isOf_of_mapped hmapped] at hof
      rw [hown ip hof] at hmapped
      cases hmapped

end PeerAddress

namespace ProxyConfig

/-- **The peers that stay are those that are not the proxy itself**, in their order, exactly if every peer
at its port whose host is a mapped address has that among the own addresses just when the version 4
address is the host's. -/
theorem peers_removeSelfPeers_iff (c : ProxyConfig) (own : List IpAddress) :
    (c.removeSelfPeers own).peers = c.peers.filter (fun p => ¬p.NamesSelf c.port own) ↔
      ∀ p ∈ c.peers, p.port = c.port → ¬p.IsLocalhost → ∀ ip ∈ p.ip?, ∀ low ∈ ip.mapped?,
        (ip ∈ own ↔ (IpAddress.v4 low).IsOf own) := by
  have hstays (p : PeerAddress) : ((!p.isLocal c.port own) = decide ¬p.NamesSelf c.port own) ↔
      (p.isLocal c.port own = true ↔ p.NamesSelf c.port own) := by
    rw [Bool.eq_iff_iff, Bool.not_eq_true', ← Bool.not_eq_true, decide_eq_true_iff, not_iff_not]
  have hfilter : (c.removeSelfPeers own).peers = c.peers.filter (fun p => ¬p.NamesSelf c.port own) ↔
      ∀ p ∈ c.peers, (!p.isLocal c.port own) = decide ¬p.NamesSelf c.port own := by
    constructor
    · intro h p hp
      have hmem : p ∈ c.peers.filter (fun p => !p.isLocal c.port own) ↔
          p ∈ c.peers.filter (fun p => ¬p.NamesSelf c.port own) :=
        iff_of_eq (congrArg (p ∈ ·) h)
      rw [List.mem_filter, List.mem_filter, and_iff_right hp, and_iff_right hp] at hmem
      exact Bool.eq_iff_iff.2 hmem
    · intro h
      exact List.filter_congr h
  rw [hfilter]
  refine forall₂_congr fun p _ => ?_
  rw [hstays, PeerAddress.isLocal_iff_namesSelf_iff]

/-- A proxy whose first peer is itself by a mapped loopback address. -/
def echoing : ProxyConfig := { peers := [⟨"::ffff:127.0.0.1", 46344⟩, ⟨"10.0.0.6", 46344⟩] }

/-- That peer stays, though it is the proxy itself. -/
theorem peers_removeSelfPeers_echoing : (echoing.removeSelfPeers []).peers = echoing.peers ∧
    echoing.peers.filter (fun p => ¬p.NamesSelf echoing.port []) = [⟨"10.0.0.6", 46344⟩] := by
  decide

end ProxyConfig
end Raop
