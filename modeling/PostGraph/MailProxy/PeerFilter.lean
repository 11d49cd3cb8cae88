import PostGraph.Foundation.Selection
import PostGraph.Smtp.Handler

/-! # Filter rules for peers

Rules apply to subnets. They are tried from the most specific to the least, and
those that allow before those that deny; the first rule that matches decides.
-/

namespace PostGraph.MailProxy

open Foundation
open Smtp (IpAddr)

/-- A subnet: the first bits of an address. -/
inductive IpNet where
  | v4 (address : BitVec 32) (prefixLen : Fin 33)
  | v6 (address : BitVec 128) (prefixLen : Fin 129)
  deriving DecidableEq

namespace IpNet

def prefixLen : IpNet → Nat
  | v4 _ length => length
  | v6 _ length => length

def contains : IpNet → IpAddr → Bool
  | v4 address length, .v4 ip => address >>> (32 - length.val) = ip >>> (32 - length.val)
  | v6 address length, .v6 ip => address >>> (128 - length.val) = ip >>> (128 - length.val)
  | _, _ => false

theorem contains_any_v4 (address : BitVec 32) : (v4 0 0).contains (.v4 address) = true := by
  have hzero : address >>> 32 = 0#32 := BitVec.ushiftRight_eq_zero le_rfl
  simp [contains, hzero]

theorem contains_any_v6 (address : BitVec 128) : (v6 0 0).contains (.v6 address) = true := by
  have hzero : address >>> 128 = 0#128 := BitVec.ushiftRight_eq_zero le_rfl
  simp [contains, hzero]

end IpNet

inductive PeerAction where
  | allow
  | deny
  deriving DecidableEq

structure FilterRule where
  action : PeerAction
  target : IpNet
  deriving DecidableEq

def FilterRule.evaluate (rule : FilterRule) (ip : IpAddr) : Option PeerAction :=
  if rule.target.contains ip then some rule.action else none

structure PeerFilter where
  rules : List FilterRule

namespace PeerFilter

def default : PeerFilter := ⟨[]⟩

/-- Add a rule, unless it is there already; the answer tells whether it was added. -/
def add (filter : PeerFilter) (rule : FilterRule) : Bool × PeerFilter :=
  if rule ∈ filter.rules then (false, filter)
  else (true, ⟨filter.rules ++ [rule]⟩)

def remove (filter : PeerFilter) (rule : FilterRule) : PeerFilter :=
  ⟨filter.rules.filter (· ≠ rule)⟩

def isEmpty (filter : PeerFilter) : Bool := filter.rules.isEmpty

/-- A filter that allows every peer. -/
def newAllowAny : PeerFilter :=
  let filter := (default.add ⟨.allow, .v4 0 0⟩).2
  (filter.add ⟨.allow, .v6 0 0⟩).2

/-- Where a rule stands among the others: the greatest comes first. -/
def getOrd (rule : FilterRule) : Nat :=
  rule.target.prefixLen * 2 + if rule.action = .allow then 1 else 0

def filterRuleCmp (a b : FilterRule) : Ordering := compare (getOrd b) (getOrd a)

/-- The rules in the order of their evaluation, and then the implicit ones. -/
def iter (filter : PeerFilter) : List FilterRule :=
  filter.rules.insertionSort (fun a b => filterRuleCmp a b ≠ .gt) ++
    [⟨.deny, .v4 0 0⟩, ⟨.deny, .v6 0 0⟩]

def evaluateWithContext (filter : PeerFilter) (ip : IpAddr) : Option (PeerAction × FilterRule) :=
  filter.iter.findSome? fun rule => (rule.evaluate ip).map (·, rule)

def evaluate (filter : PeerFilter) (ip : IpAddr) : PeerAction :=
  match filter.evaluateWithContext ip with
  | some (action, _) => action
  | none => .deny

/-! ## The longest prefix decides -/

/-- The rule matches, and no matching rule of the filter has a longer prefix. -/
structure MostSpecific (filter : PeerFilter) (ip : IpAddr) (rule : FilterRule) : Prop where
  mem : rule ∈ filter.rules
  contains : rule.target.contains ip = true
  longest : ∀ other ∈ filter.rules, other.target.contains ip = true →
    other.target.prefixLen ≤ rule.target.prefixLen

theorem filterRuleCmp_ne_gt_iff {a b : FilterRule} :
    filterRuleCmp a b ≠ .gt ↔ getOrd b ≤ getOrd a :=
  Nat.compare_ne_gt

instance : Std.Total fun a b : FilterRule => filterRuleCmp a b ≠ .gt where
  total a b := by
    rw [filterRuleCmp_ne_gt_iff, filterRuleCmp_ne_gt_iff]
    exact Nat.le_total _ _

instance : IsTrans FilterRule fun a b => filterRuleCmp a b ≠ .gt where
  trans a b c hab hbc := by
    rw [filterRuleCmp_ne_gt_iff] at *
    exact Nat.le_trans hbc hab

/-- The first matching rule in the order of evaluation. -/
def selected (filter : PeerFilter) (ip : IpAddr) : Option FilterRule :=
  (filter.rules.insertionSort fun a b => filterRuleCmp a b ≠ .gt).find? (·.target.contains ip)

/-- One of the implicit rules matches every address. -/
theorem evaluateWithContext_eq (filter : PeerFilter) (ip : IpAddr) : ∃ implicit,
    filter.evaluateWithContext ip =
      some (((filter.selected ip).map fun rule => (rule.action, rule)).getD (.deny, implicit)) := by
  have hmatch : ∀ rules : List FilterRule,
      (rules.findSome? fun rule => (rule.evaluate ip).map (·, rule)) =
        (rules.find? (·.target.contains ip)).map fun rule => (rule.action, rule) := by
    intro rules
    rw [← Selection.findSome?_ite]
    congr 1
    funext rule
    rw [FilterRule.evaluate]
    split <;> rfl
  rw [evaluateWithContext, hmatch, iter, List.find?_append]
  change ∃ implicit, ((filter.selected ip).or _).map _ = _
  cases filter.selected ip with
  | some rule => exact ⟨⟨.deny, .v4 0 0⟩, rfl⟩
  | none =>
      rw [Option.none_or]
      cases ip with
      | v4 address =>
          rw [List.find?_cons_of_pos (by exact IpNet.contains_any_v4 address)]
          exact ⟨_, rfl⟩
      | v6 address =>
          rw [List.find?_cons_of_neg (by simp [IpNet.contains]),
            List.find?_cons_of_pos (by exact IpNet.contains_any_v6 address)]
          exact ⟨_, rfl⟩

theorem evaluate_eq (filter : PeerFilter) (ip : IpAddr) :
    filter.evaluate ip = ((filter.selected ip).map FilterRule.action).getD .deny := by
  obtain ⟨implicit, hcontext⟩ := filter.evaluateWithContext_eq ip
  rw [evaluate, hcontext]
  cases filter.selected ip <;> rfl

/-- The selected rule is as specific as any matching rule, and denies only if
no rule as specific allows. -/
theorem selected_some {filter : PeerFilter} {ip : IpAddr} {rule : FilterRule}
    (h : filter.selected ip = some rule) : filter.MostSpecific ip rule ∧
      ∀ other, filter.MostSpecific ip other → other.action = .allow → rule.action = .allow := by
  obtain ⟨hmem, hcontains, hfirst⟩ := Selection.find?_insertionSort h
  have hord : ∀ other ∈ filter.rules, other.target.contains ip = true →
      getOrd other ≤ getOrd rule := by
    intro other hother hmatches
    exact filterRuleCmp_ne_gt_iff.mp (hfirst other hother hmatches)
  constructor
  · refine ⟨hmem, hcontains, ?_⟩
    intro other hother hmatches
    have hle := hord other hother hmatches
    unfold getOrd at hle
    split at hle <;> split at hle <;> omega
  · intro other hother hallow
    have hle := hord other hother.mem hother.contains
    have hlonger := hother.longest rule hmem hcontains
    by_contra hdeny
    rw [getOrd, getOrd, if_pos hallow, if_neg hdeny] at hle
    omega

theorem evaluate_eq_allow_iff (filter : PeerFilter) (ip : IpAddr) :
    filter.evaluate ip = .allow ↔ ∃ rule, filter.MostSpecific ip rule ∧ rule.action = .allow := by
  rw [evaluate_eq]
  cases hselected : filter.selected ip with
  | none =>
      have hnone := Selection.find?_insertionSort_eq_none hselected
      constructor
      · intro h
        cases h
      · rintro ⟨rule, hrule, _⟩
        exact absurd hrule.contains (by simp [hnone rule hrule.mem])
  | some rule =>
      obtain ⟨hspecific, hallows⟩ := selected_some hselected
      constructor
      · intro hallow
        exact ⟨rule, hspecific, hallow⟩
      · rintro ⟨other, hother, hallow⟩
        exact hallows other hother hallow

theorem MostSpecific.of_mem_iff {filter filter' : PeerFilter} {ip : IpAddr} {rule : FilterRule}
    (hmem : ∀ rule, rule ∈ filter.rules ↔ rule ∈ filter'.rules) (h : filter.MostSpecific ip rule) :
    filter'.MostSpecific ip rule where
  mem := (hmem rule).mp h.mem
  contains := h.contains
  longest other hother := h.longest other ((hmem other).mpr hother)

/-- The rules count, not their order. -/
theorem evaluate_congr {filter filter' : PeerFilter}
    (hmem : ∀ rule, rule ∈ filter.rules ↔ rule ∈ filter'.rules) (ip : IpAddr) :
    filter.evaluate ip = filter'.evaluate ip := by
  have hiff : filter.evaluate ip = .allow ↔ filter'.evaluate ip = .allow := by
    rw [evaluate_eq_allow_iff, evaluate_eq_allow_iff]
    constructor
    · rintro ⟨rule, hrule, hallow⟩
      exact ⟨rule, hrule.of_mem_iff hmem, hallow⟩
    · rintro ⟨rule, hrule, hallow⟩
      exact ⟨rule, hrule.of_mem_iff fun rule => (hmem rule).symm, hallow⟩
  cases hdecision : filter.evaluate ip with
  | allow => exact (hiff.mp hdecision).symm
  | deny =>
      cases hdecision' : filter'.evaluate ip with
      | allow => exact absurd (hdecision.symm.trans (hiff.mpr hdecision')) (by decide)
      | deny => rfl

/-- The longest prefix decides, and among rules with the longest prefix one that
allows: a filter's decision is that of its set of rules, in whatever order and
however often they stand in it. Without a matching rule it denies. -/
theorem longest_prefix_decides (filter : PeerFilter) (ip : IpAddr) :
    (filter.evaluate ip = .allow ↔
      ∃ rule, filter.MostSpecific ip rule ∧ rule.action = .allow) ∧
    ((∀ rule ∈ filter.rules, rule.target.contains ip = false) → filter.evaluate ip = .deny) ∧
    filter.evaluateWithContext ip ≠ none ∧
    ∀ filter' : PeerFilter, (∀ rule, rule ∈ filter.rules ↔ rule ∈ filter'.rules) →
      filter'.evaluate ip = filter.evaluate ip := by
  refine ⟨filter.evaluate_eq_allow_iff ip, ?_, ?_, ?_⟩
  · intro hnone
    cases hdecision : filter.evaluate ip with
    | deny => rfl
    | allow =>
        obtain ⟨rule, hrule, _⟩ := (filter.evaluate_eq_allow_iff ip).mp hdecision
        exact absurd hrule.contains (by simp [hnone rule hrule.mem])
  · obtain ⟨implicit, hcontext⟩ := filter.evaluateWithContext_eq ip
    rw [hcontext]
    simp
  · exact fun filter' hmem => evaluate_congr (fun rule => (hmem rule).symm) ip

end PeerFilter

end PostGraph.MailProxy
