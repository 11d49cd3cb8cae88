import PostGraph.MailProxy.MappedPeers

/-! # Edits of a filter

What one more rule, or one less, does to the decisions of a filter. On a tie of
prefixes the rule that allows wins, so that the two actions are not symmetric.
-/

namespace PostGraph.MailProxy.PeerFilter

open Smtp (IpAddr)

variable {filter : PeerFilter} {ip : IpAddr}

theorem mem_add {rule other : FilterRule} :
    other ∈ (filter.add rule).2.rules ↔ other = rule ∨ other ∈ filter.rules := by
  unfold add
  split
  next hmem =>
    refine ⟨.inr, ?_⟩
    rintro (rfl | hother)
    · exact hmem
    · exact hother
  next =>
    rw [List.mem_append, List.mem_singleton]
    exact or_comm

theorem mem_remove {rule other : FilterRule} :
    other ∈ (filter.remove rule).rules ↔ other ∈ filter.rules ∧ other ≠ rule := by
  rw [remove, List.mem_filter, decide_eq_true_iff]

/-- Rules are added once at most. -/
theorem nodup_add (h : filter.rules.Nodup) (rule : FilterRule) :
    (filter.add rule).2.rules.Nodup := by
  unfold add
  split
  next => exact h
  next hnew =>
    rw [← List.concat_eq_append]
    exact h.concat hnew

theorem nodup_remove (h : filter.rules.Nodup) (rule : FilterRule) :
    (filter.remove rule).rules.Nodup := h.filter _

/-- A rule that was not there is added and removed without a trace. -/
theorem remove_add {rule : FilterRule} (hnew : rule ∉ filter.rules) :
    (filter.add rule).2.remove rule = filter := by
  rw [add, if_neg hnew, remove]
  congr 1
  rw [List.filter_append, List.filter_singleton, decide_eq_false (not_not_intro rfl)]
  refine (List.append_nil _).trans (List.filter_eq_self.mpr fun other hother => ?_)
  exact decide_eq_true fun heq => hnew (heq ▸ hother)

/-- Some matching rule is at least as specific as the subnet. -/
def Covers (filter : PeerFilter) (ip : IpAddr) (net : IpNet) : Prop :=
  ∃ other ∈ filter.rules, other.target.contains ip = true ∧
    net.prefixLen ≤ other.target.prefixLen

/-- No matching rule is more specific than the subnet. -/
def CoveredBy (filter : PeerFilter) (ip : IpAddr) (net : IpNet) : Prop :=
  ∀ other ∈ filter.rules, other.target.contains ip = true →
    other.target.prefixLen ≤ net.prefixLen

/-- A new rule that is matched and that no other exceeds is the most specific one. -/
theorem mostSpecific_add {rule : FilterRule} (hcontains : rule.target.contains ip = true)
    (hcovered : filter.CoveredBy ip rule.target) : (filter.add rule).2.MostSpecific ip rule where
  mem := mem_add.mpr (.inl rfl)
  contains := hcontains
  longest other hother hmatches := by
    rcases mem_add.mp hother with rfl | hold
    · exact Nat.le_refl _
    · exact hcovered other hold hmatches

/-- A rule that was the most specific one stays so, unless the new one exceeds it. -/
theorem MostSpecific.add {rule other : FilterRule} (h : filter.MostSpecific ip rule)
    (hother : other.target.contains ip = true →
      other.target.prefixLen ≤ rule.target.prefixLen) :
    (filter.add other).2.MostSpecific ip rule where
  mem := mem_add.mpr (.inr h.mem)
  contains := h.contains
  longest rival hrival hmatches := by
    rcases mem_add.mp hrival with rfl | hold
    · exact hother hmatches
    · exact h.longest rival hold hmatches

/-- Among more rules it takes more to be the most specific one. -/
theorem MostSpecific.of_add {rule other : FilterRule}
    (h : (filter.add other).2.MostSpecific ip rule) :
    rule = other ∧ filter.CoveredBy ip other.target ∨ filter.MostSpecific ip rule ∧
      (other.target.contains ip = true → other.target.prefixLen ≤ rule.target.prefixLen) := by
  rcases mem_add.mp h.mem with rfl | hmem
  · exact .inl ⟨rfl, fun rival hrival => h.longest rival (mem_add.mpr (.inr hrival))⟩
  · refine .inr ⟨⟨hmem, h.contains, ?_⟩, h.longest other (mem_add.mpr (.inl rfl))⟩
    exact fun rival hrival => h.longest rival (mem_add.mpr (.inr hrival))

/-- A rule that allows admits those that it matches, unless a more specific one denies. -/
theorem evaluate_add_allow (net : IpNet) :
    (filter.add ⟨.allow, net⟩).2.evaluate ip = .allow ↔
      filter.evaluate ip = .allow ∨ net.contains ip = true ∧ filter.CoveredBy ip net := by
  rw [evaluate_eq_allow_iff, evaluate_eq_allow_iff]
  constructor
  · rintro ⟨rule, hrule, hallow⟩
    rcases hrule.of_add with ⟨rfl, hcovered⟩ | ⟨hold, -⟩
    · exact .inr ⟨hrule.contains, hcovered⟩
    · exact .inl ⟨rule, hold, hallow⟩
  · rintro (⟨rule, hrule, hallow⟩ | ⟨hcontains, hcovered⟩)
    · by_cases hlonger : net.contains ip = true ∧ rule.target.prefixLen < net.prefixLen
      · -- the new rule takes the place of the old one
        have hcovered : filter.CoveredBy ip net := fun other hother hmatches =>
          (hrule.longest other hother hmatches).trans hlonger.2.le
        exact ⟨⟨.allow, net⟩, mostSpecific_add hlonger.1 hcovered, rfl⟩
      · refine ⟨rule, hrule.add fun hmatches => ?_, hallow⟩
        exact Nat.not_lt.mp fun hlt => hlonger ⟨hmatches, hlt⟩
    · exact ⟨⟨.allow, net⟩, mostSpecific_add hcontains hcovered, rfl⟩

/-- A rule that denies shuts out those that it matches, unless a rule at least as
specific is there. -/
theorem evaluate_add_deny (net : IpNet) :
    (filter.add ⟨.deny, net⟩).2.evaluate ip = .allow ↔
      filter.evaluate ip = .allow ∧ (net.contains ip = true → filter.Covers ip net) := by
  rw [evaluate_eq_allow_iff, evaluate_eq_allow_iff]
  constructor
  · rintro ⟨rule, hrule, hallow⟩
    rcases hrule.of_add with ⟨rfl, -⟩ | ⟨hold, hexceeds⟩
    · cases hallow
    · exact ⟨⟨rule, hold, hallow⟩, fun hmatches =>
        ⟨rule, hold.mem, hold.contains, hexceeds hmatches⟩⟩
  · rintro ⟨⟨rule, hrule, hallow⟩, hcovers⟩
    refine ⟨rule, hrule.add fun hmatches => ?_, hallow⟩
    obtain ⟨other, hother, hcontains, hle⟩ := hcovers hmatches
    exact hle.trans (hrule.longest other hother hcontains)

/-- A rule that was removed can be added again. -/
theorem evaluate_add_remove {rule : FilterRule} (hold : rule ∈ filter.rules) (ip : IpAddr) :
    ((filter.remove rule).add rule).2.evaluate ip = filter.evaluate ip := by
  refine evaluate_congr (fun other => ?_) ip
  rw [mem_add, mem_remove]
  constructor
  · rintro (rfl | ⟨hother, -⟩)
    · exact hold
    · exact hother
  · intro hother
    by_cases heq : other = rule
    · exact .inl heq
    · exact .inr ⟨hother, heq⟩

/-- What a rule is for. One that allows admits the addresses of its subnet for which no
more specific rule is there; one that denies shuts out those for which no rule at least
as specific is there; no other address notices, and to remove a rule undoes to add it. -/
theorem rule_effect (filter : PeerFilter) (net : IpNet) (ip : IpAddr) :
    ((filter.add ⟨.allow, net⟩).2.evaluate ip = .allow ↔
      filter.evaluate ip = .allow ∨ net.contains ip = true ∧ filter.CoveredBy ip net) ∧
    ((filter.add ⟨.deny, net⟩).2.evaluate ip = .allow ↔
      filter.evaluate ip = .allow ∧ (net.contains ip = true → filter.Covers ip net)) ∧
    ∀ action, (⟨action, net⟩ ∉ filter.rules →
        (filter.add ⟨action, net⟩).2.remove ⟨action, net⟩ = filter) ∧
      (⟨action, net⟩ ∈ filter.rules →
        ((filter.remove ⟨action, net⟩).add ⟨action, net⟩).2.evaluate ip = filter.evaluate ip) :=
  ⟨evaluate_add_allow net, evaluate_add_deny net, fun _ =>
    ⟨remove_add, fun hold => evaluate_add_remove hold ip⟩⟩

end PostGraph.MailProxy.PeerFilter
