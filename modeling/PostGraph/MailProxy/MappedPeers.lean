import PostGraph.MailProxy.PeerFilter

/-! # Mapped peers

A listener for both families reports an IPv4 client under the IPv6 address that its
own is mapped to. No rule applies to both addresses: what the filter decides about
the one comes from the rules for IPv4 subnets, and about the other from those for
IPv6 subnets.
-/

namespace PostGraph.MailProxy

open Smtp (IpAddr)

/-- The address `::ffff:a` of an IPv4 address `a`. -/
def mappedAddress (address : BitVec 32) : IpAddr := .v6 (0xFFFF#96 ++ address)

def IpNet.isV4 : IpNet → Bool
  | v4 _ _ => true
  | v6 _ _ => false

theorem IpNet.isV4_of_contains {net : IpNet} {address : BitVec 32}
    (h : net.contains (.v4 address) = true) : net.isV4 = true := by
  cases net with
  | v4 _ _ => rfl
  | v6 _ _ => cases h

theorem IpNet.isV6_of_contains {net : IpNet} {address : BitVec 128}
    (h : net.contains (.v6 address) = true) : net.isV4 = false := by
  cases net with
  | v4 _ _ => cases h
  | v6 _ _ => rfl

namespace PeerFilter

/-- The rules for IPv4 subnets. -/
def v4 (filter : PeerFilter) : PeerFilter := ⟨filter.rules.filter (·.target.isV4)⟩

/-- The rules for IPv6 subnets. -/
def v6 (filter : PeerFilter) : PeerFilter := ⟨filter.rules.filter (!·.target.isV4)⟩

/-- Among the rules that match with the longest prefix is one that allows. -/
def Admits (filter : PeerFilter) (ip : IpAddr) : Prop :=
  ∃ rule, filter.MostSpecific ip rule ∧ rule.action = .allow

/-- Rules that cannot match make no difference. -/
theorem admits_filter_iff {filter : PeerFilter} {ip : IpAddr} {p : FilterRule → Bool}
    (hp : ∀ rule, rule.target.contains ip = true → p rule = true) :
    Admits ⟨filter.rules.filter p⟩ ip ↔ filter.Admits ip := by
  have hmem : ∀ rule, rule.target.contains ip = true →
      (rule ∈ filter.rules.filter p ↔ rule ∈ filter.rules) := by
    intro rule hrule
    rw [List.mem_filter, and_iff_left (hp rule hrule)]
  constructor
  · rintro ⟨rule, ⟨hrule, hcontains, hlongest⟩, hallow⟩
    refine ⟨rule, ⟨(hmem rule hcontains).mp hrule, hcontains, ?_⟩, hallow⟩
    exact fun other hother hmatches => hlongest other ((hmem other hmatches).mpr hother) hmatches
  · rintro ⟨rule, ⟨hrule, hcontains, hlongest⟩, hallow⟩
    refine ⟨rule, ⟨(hmem rule hcontains).mpr hrule, hcontains, ?_⟩, hallow⟩
    exact fun other hother hmatches => hlongest other ((hmem other hmatches).mp hother) hmatches

/-- A client is treated alike under both addresses exactly if the rules for IPv4
subnets and the rules for IPv6 subnets say the same of him. -/
theorem evaluate_mapped_iff (filter : PeerFilter) (address : BitVec 32) :
    filter.evaluate (.v4 address) = filter.evaluate (mappedAddress address) ↔
      (filter.v4.Admits (.v4 address) ↔ filter.v6.Admits (mappedAddress address)) := by
  have hplain : filter.v4.Admits (.v4 address) ↔ filter.evaluate (.v4 address) = .allow := by
    rw [evaluate_eq_allow_iff]
    exact admits_filter_iff fun rule => IpNet.isV4_of_contains
  have hmapped : filter.v6.Admits (mappedAddress address) ↔
      filter.evaluate (mappedAddress address) = .allow := by
    rw [evaluate_eq_allow_iff]
    refine admits_filter_iff fun rule hrule => ?_
    rw [IpNet.isV6_of_contains hrule]
    rfl
  rw [hplain, hmapped]
  cases filter.evaluate (.v4 address) <;> cases filter.evaluate (mappedAddress address) <;> simp

/-- A rule denies the subnet 10.0.0.0/8 in a filter that allows all other peers. -/
def denyingSubnet : PeerFilter := (newAllowAny.add ⟨.deny, .v4 0x0A000000#32 ⟨8, by decide⟩⟩).2

/-- The client 10.0.0.1 is denied, and allowed under its mapped address. -/
theorem subnet_bypassed :
    denyingSubnet.evaluate (.v4 0x0A000001#32) ≠
      denyingSubnet.evaluate (mappedAddress 0x0A000001#32) := by
  decide

end PeerFilter

end PostGraph.MailProxy
