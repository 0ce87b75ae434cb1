import SloppyGroup.Proofs.Gossip.Purity

/-!
What verification finds: the first sybil node with a record of an honest one, and if there is none,
exactly the honest nodes that miss members of their group. No other verdict fits the records.
-/

namespace SloppyGroup

namespace TrustGraph

variable {g : TrustGraph} {u v : Nat}

def honestNodes (g : TrustGraph) : Finset Nat :=
  (Finset.range g.size).filter fun v => (g.node v).isSybil = false

def sybilNodes (g : TrustGraph) : Finset Nat :=
  (Finset.range g.size).filter fun v => (g.node v).isSybil = true

/-- The honest nodes with the group prefix of `v`. -/
def honestMembers (g : TrustGraph) (v : Nat) : Finset Nat :=
  g.honestNodes.filter fun u => (g.node u).group = (g.node v).group

theorem mem_honestNodes : v ∈ g.honestNodes ↔ v < g.size ∧ (g.node v).isSybil = false := by
  rw [honestNodes, Finset.mem_filter, Finset.mem_range]

theorem mem_sybilNodes : v ∈ g.sybilNodes ↔ v < g.size ∧ (g.node v).isSybil = true := by
  rw [sybilNodes, Finset.mem_filter, Finset.mem_range]

theorem sorted_honest (g : TrustGraph) : g.honest.Pairwise (· < ·) :=
  List.pairwise_lt_range.filter _

theorem sorted_sybils (g : TrustGraph) : g.sybils.Pairwise (· < ·) :=
  List.pairwise_lt_range.filter _

theorem mem_sybils : v ∈ g.sybils ↔ v ∈ g.sybilNodes := by
  rw [sybils, List.mem_filter, List.mem_range, mem_sybilNodes]

theorem toFinset_honest (g : TrustGraph) : g.honest.toFinset = g.honestNodes := by
  ext v
  rw [List.mem_toFinset, mem_honest, mem_honestNodes]

theorem toFinset_honestGroup (g : TrustGraph) (v : Nat) :
    (g.honestGroup v).toFinset = g.honestMembers v := by
  ext u
  rw [List.mem_toFinset, mem_honestGroup, honestMembers, Finset.mem_filter, ← toFinset_honest,
    List.mem_toFinset]

theorem length_honest (g : TrustGraph) : g.honest.length = g.honestNodes.card := by
  rw [← toFinset_honest, List.toFinset_card_of_nodup g.sorted_honest.nodup]

theorem length_sybils (g : TrustGraph) : g.sybils.length = g.sybilNodes.card := by
  have same : g.sybils.toFinset = g.sybilNodes := by
    ext v
    rw [List.mem_toFinset, mem_sybils]
  rw [← same, List.toFinset_card_of_nodup g.sorted_sybils.nodup]

theorem nodup_honestGroup (g : TrustGraph) (v : Nat) : (g.honestGroup v).Nodup :=
  g.sorted_honest.nodup.filter _

theorem length_honestGroup (g : TrustGraph) (v : Nat) :
    (g.honestGroup v).length = (g.honestMembers v).card := by
  rw [← toFinset_honestGroup, List.toFinset_card_of_nodup (g.nodup_honestGroup v)]

end TrustGraph

namespace Records

variable {g : TrustGraph} {records : Records} {u v r count : Nat}

/-- All records are those of nodes below `count`. -/
def InRange (records : Records) (count : Nat) : Prop :=
  ∀ v r, records.knows v r = true → r < count

theorem inRange_iff : records.InRange count ↔
    ∀ set ∈ records.sets.toList, ∀ r ∈ set.toList, r < count := by
  constructor
  · intro inRange set hset r hr
    obtain ⟨v, hv, rfl⟩ := List.mem_iff_getElem.1 hset
    rw [Array.length_toList] at hv
    rw [Std.ExtTreeSet.mem_toList, Array.getElem_toList] at hr
    apply inRange v r
    rw [knows, of, Array.getD, dif_pos hv]
    exact hr
  · intro checked v r known
    rw [knows, of, Array.getD] at known
    split at known
    · rename_i hv
      apply checked records.sets[v] (Array.getElem_mem_toList hv)
      exact Std.ExtTreeSet.mem_toList.2 known
    · simp at known

instance : Decidable (records.InRange count) :=
  decidable_of_iff _ inRange_iff.symm

def Leaks (records : Records) (g : TrustGraph) (v r : Nat) : Prop :=
  v ∈ g.sybilNodes ∧ r ∈ g.honestNodes ∧ records.knows v r = true

/-- The lowest sybil node that knows an honest one, and the lowest honest node that it knows. -/
structure FirstLeak (records : Records) (g : TrustGraph) (v r : Nat) : Prop where
  sybil : IsLeast {w | ∃ s, records.Leaks g w s} v
  record : IsLeast {s | records.Leaks g v s} r

/-- An honest node that misses members of its group, with how many it knows out of how many. -/
structure Misses (records : Records) (g : TrustGraph) (m : Mismatch) : Prop where
  honest : m.node ∈ g.honestNodes
  missing : ∃ u ∈ g.honestMembers m.node, records.knows m.node u = false
  label_eq : m.label = (g.node m.node).label
  group_eq : m.group = (g.node m.node).group
  known_eq : m.known = ((g.honestMembers m.node).filter (records.knows m.node · = true)).card
  all_eq : m.all = (g.honestMembers m.node).card

/-- A report that counts the nodes and lists, in order and once each, the nodes that miss someone. -/
structure Reports (records : Records) (g : TrustGraph) (report : Report) : Prop where
  honestCount_eq : report.honestCount = g.honestNodes.card
  sybilCount_eq : report.sybilCount = g.sybilNodes.card
  ordered : (report.mismatches.map (·.node)).Pairwise (· < ·)
  mem_iff : ∀ m, m ∈ report.mismatches ↔ records.Misses g m
  known_lt_all : ∀ m ∈ report.mismatches, m.known < m.all

inductive Verdict (records : Records) (g : TrustGraph) : Except SimulationError Report → Prop where
  | leak {v r : Nat} (first : records.FirstLeak g v r) :
      Verdict records g
        (.error (.violated (.sybilLearnedHonest (g.node v).label (g.node r).label)))
  | report {report : Report} (tight : ∀ v r, ¬records.Leaks g v r)
      (reports : records.Reports g report) : Verdict records g (.ok report)

/-- The first member of an increasing list that has a property is the least one. -/
theorem isLeast_of_first {before after : List Nat} {P : Nat → Prop}
    (sorted : (before ++ v :: after).Pairwise (· < ·)) (holds : P v)
    (fails : ∀ w ∈ before, ¬P w) : IsLeast {w | w ∈ before ++ v :: after ∧ P w} v := by
  refine ⟨⟨by simp, holds⟩, ?_⟩
  rintro w ⟨member, also⟩
  rcases List.mem_append.1 member with early | late
  · exact absurd also (fails w early)
  · rcases List.mem_cons.1 late with rfl | late
    · exact Nat.le_refl w
    · have later := (List.pairwise_append.1 sorted).2.1
      exact Nat.le_of_lt (List.rel_of_pairwise_cons later late)

theorem isLeast_honestRecord? (found : records.honestRecord? g v = some r) :
    IsLeast {s | records.knows v s = true ∧ (g.node s).isSybil = false} r := by
  obtain ⟨honest, before, after, split, sybils⟩ := List.find?_eq_some_iff_append.1 found
  have sorted := (records.of v).sorted_toList
  rw [split] at sorted
  have least : IsLeast {s | s ∈ before ++ r :: after ∧ (g.node s).isSybil = false} r := by
    apply isLeast_of_first sorted
    · simpa using honest
    · intro s early
      simpa using sybils s early
  rw [← split] at least
  simp only [Std.ExtTreeSet.mem_toList] at least
  exact least

theorem leaks_iff (inRange : records.InRange g.size) : records.Leaks g v r ↔
    v ∈ g.sybilNodes ∧ records.knows v r = true ∧ (g.node r).isSybil = false := by
  rw [Leaks, TrustGraph.mem_honestNodes]
  constructor
  · rintro ⟨sybil, ⟨-, honest⟩, known⟩
    exact ⟨sybil, known, honest⟩
  · rintro ⟨sybil, known, honest⟩
    exact ⟨sybil, ⟨inRange v r known, honest⟩, known⟩

theorem not_leaks (inRange : records.InRange g.size) (none : records.honestRecord? g v = none)
    (r : Nat) : ¬records.Leaks g v r := by
  intro leak
  obtain ⟨-, known, honest⟩ := (leaks_iff inRange).1 leak
  rw [honestRecord?, List.find?_eq_none] at none
  apply none r (Std.ExtTreeSet.mem_toList.2 known)
  rw [honest]
  rfl

theorem firstLeak_of_leak? (inRange : records.InRange g.size)
    (found : records.leak? g = some (v, r)) : records.FirstLeak g v r := by
  obtain ⟨before, w, after, split, here, tight⟩ := List.findSome?_eq_some_iff.1 found
  obtain ⟨s, record, same⟩ := Option.map_eq_some_iff.1 here
  cases same
  have least := isLeast_honestRecord? record
  have sorted := g.sorted_sybils
  rw [split] at sorted
  have sybil : v ∈ g.sybilNodes := by
    rw [← TrustGraph.mem_sybils, split]
    simp
  have leaks : ∀ s, records.Leaks g v s ↔
      records.knows v s = true ∧ (g.node s).isSybil = false := by
    intro s
    rw [leaks_iff inRange, and_iff_right sybil]
  constructor
  · have first : IsLeast {w | w ∈ before ++ v :: after ∧ ∃ s, records.Leaks g w s} v := by
      apply isLeast_of_first sorted
      · exact ⟨r, (leaks r).2 least.1⟩
      · rintro w early ⟨s, leak⟩
        exact not_leaks inRange (Option.map_eq_none_iff.1 (tight w early)) s leak
    rw [← split] at first
    refine ⟨first.1.2, ?_⟩
    rintro w ⟨s, leak⟩
    exact first.2 ⟨TrustGraph.mem_sybils.2 leak.1, s, leak⟩
  · simp only [leaks]
    exact least

theorem pure_iff_tight (inRange : records.InRange g.size) :
    Pure g records ↔ ∀ v r, ¬records.Leaks g v r := by
  constructor
  · intro pure v r leak
    obtain ⟨sybil, known, honest⟩ := (leaks_iff inRange).1 leak
    rw [pure v r (TrustGraph.mem_sybilNodes.1 sybil).2 known] at honest
    cases honest
  · intro tight v r sybil known
    by_contra honest
    rw [Bool.not_eq_true] at honest
    have inside : v ∈ g.sybilNodes :=
      TrustGraph.mem_sybilNodes.2 ⟨TrustGraph.lt_size_of_isSybil sybil, sybil⟩
    exact tight v r ((leaks_iff inRange).2 ⟨inside, known, honest⟩)

theorem countP_honestGroup (records : Records) (g : TrustGraph) (v : Nat) :
    (g.honestGroup v).countP (records.knows v ·) =
      ((g.honestMembers v).filter (records.knows v · = true)).card := by
  have known := List.toFinset_card_of_nodup ((g.nodup_honestGroup v).filter (records.knows v ·))
  rw [List.toFinset_filter, TrustGraph.toFinset_honestGroup] at known
  rw [List.countP_eq_length_filter, ← known]

theorem Misses.known_lt_all {m : Mismatch} (h : records.Misses g m) : m.known < m.all := by
  obtain ⟨u, member, unknown⟩ := h.missing
  rw [h.known_eq, h.all_eq]
  apply Finset.card_lt_card
  apply Finset.filter_ssubset.2
  exact ⟨u, member, by simp [unknown]⟩

theorem mismatch?_eq_some_iff {m : Mismatch} (honest : v ∈ g.honest) :
    records.mismatch? g v = some m ↔ m.node = v ∧ records.Misses g m := by
  rw [← List.mem_toFinset, TrustGraph.toFinset_honest] at honest
  have some_iff : records.mismatch? g v = some m ↔ records.mismatch? g v ≠ none ∧
      m = ⟨v, (g.node v).label, (g.node v).group, (g.honestGroup v).countP (records.knows v ·),
        (g.honestGroup v).length⟩ := by
    rw [mismatch?]
    split
    · simp
    · simp [eq_comm]
  have missing : records.mismatch? g v ≠ none ↔
      ∃ u ∈ g.honestMembers v, records.knows v u = false := by
    rw [ne_eq, mismatch?_eq_none_iff]
    simp only [← TrustGraph.toFinset_honestGroup, List.mem_toFinset]
    push Not
    simp only [Bool.not_eq_true]
  rw [some_iff, missing, countP_honestGroup, TrustGraph.length_honestGroup]
  constructor
  · rintro ⟨missing, rfl⟩
    exact ⟨rfl, honest, missing, rfl, rfl, rfl, rfl⟩
  · rintro ⟨rfl, -, missing, label, group, known, all⟩
    cases m
    simp_all

theorem mem_mismatches {m : Mismatch} :
    m ∈ g.honest.filterMap (records.mismatch? g) ↔ records.Misses g m := by
  rw [List.mem_filterMap]
  constructor
  · rintro ⟨v, honest, found⟩
    exact ((mismatch?_eq_some_iff honest).1 found).2
  · intro misses
    have honest : m.node ∈ g.honest := by
      rw [← List.mem_toFinset, TrustGraph.toFinset_honest]
      exact misses.honest
    exact ⟨m.node, honest, (mismatch?_eq_some_iff honest).2 ⟨rfl, misses⟩⟩

theorem ordered_mismatches (records : Records) (g : TrustGraph) :
    ((g.honest.filterMap (records.mismatch? g)).map (·.node)).Pairwise (· < ·) := by
  rw [List.pairwise_map, List.pairwise_filterMap]
  apply g.sorted_honest.imp_of_mem
  intro v w hv hw before m found m' found'
  rw [((mismatch?_eq_some_iff hv).1 found).1, ((mismatch?_eq_some_iff hw).1 found').1]
  exact before

theorem reports_mismatches (records : Records) (g : TrustGraph) : records.Reports g
    ⟨g.honest.filterMap (records.mismatch? g), g.honest.length, g.sybils.length⟩ where
  honestCount_eq := g.length_honest
  sybilCount_eq := g.length_sybils
  ordered := ordered_mismatches records g
  mem_iff _ := mem_mismatches
  known_lt_all _ hm := (mem_mismatches.1 hm).known_lt_all

theorem Reports.unique {first second : Report} (h : records.Reports g first)
    (h' : records.Reports g second) : first = second := by
  have ordered := List.pairwise_map.1 h.ordered
  have ordered' := List.pairwise_map.1 h'.ordered
  have apart {a b : Mismatch} (before : a.node < b.node) : a ≠ b := by
    rintro rfl
    exact Nat.lt_irrefl _ before
  have same : first.mismatches = second.mismatches := by
    have perm : first.mismatches.Perm second.mismatches := by
      rw [List.perm_ext_iff_of_nodup (ordered.imp apart) (ordered'.imp apart)]
      intro m
      rw [h.mem_iff, h'.mem_iff]
    apply perm.eq_of_pairwise _ ordered ordered'
    intro a b _ _ before after
    exact absurd after (Nat.lt_asymm before)
  have honest := h.honestCount_eq.trans h'.honestCount_eq.symm
  have sybil := h.sybilCount_eq.trans h'.sybilCount_eq.symm
  cases first
  cases second
  simp_all

theorem FirstLeak.unique {v' r' : Nat} (h : records.FirstLeak g v r)
    (h' : records.FirstLeak g v' r') : v = v' ∧ r = r' := by
  obtain rfl := h.sybil.unique h'.sybil
  exact ⟨rfl, h.record.unique h'.record⟩

theorem Verdict.unique {first second : Except SimulationError Report}
    (h : records.Verdict g first) (h' : records.Verdict g second) : first = second := by
  cases h with
  | leak found =>
    cases h' with
    | leak found' =>
      obtain ⟨rfl, rfl⟩ := found.unique found'
      rfl
    | report tight => exact absurd found.record.1 (tight _ _)
  | report tight reports =>
    cases h' with
    | leak found' => exact absurd found'.record.1 (tight _ _)
    | report _ reports' => rw [reports.unique reports']

theorem verdict_verify (covers : records.size = g.size) (inRange : records.InRange g.size) :
    records.Verdict g (records.verify g) := by
  rw [verify, if_neg (not_not_intro covers)]
  cases found : records.leak? g with
  | some leak => exact .leak (firstLeak_of_leak? inRange found)
  | none =>
    apply Verdict.report _ (reports_mismatches records g)
    intro v r leak
    rw [leak?, List.findSome?_eq_none_iff] at found
    have unknown := found v (TrustGraph.mem_sybils.2 leak.1)
    exact not_leaks inRange (Option.map_eq_none_iff.1 unknown) r leak

/-- Verification is sound and complete: its verdict is the one that fits the records. It does not
fail if and only if the records are pure. -/
theorem verify_judges (g : TrustGraph) (records : Records) (covers : records.size = g.size)
    (inRange : records.InRange g.size) :
    (∀ verdict, records.verify g = verdict ↔ records.Verdict g verdict) ∧
    (records.arePure g = true ↔ ∃ report, records.verify g = .ok report) := by
  have judged := verdict_verify covers inRange
  constructor
  · intro verdict
    constructor
    · rintro rfl
      exact judged
    · exact judged.unique
  · rw [arePure_iff]
    constructor
    · exact fun pure => pure.exists_verify covers
    · rintro ⟨report, passed⟩
      rw [passed] at judged
      cases judged with
      | report tight => exact (pure_iff_tight inRange).2 tight

/-- Records with which the sybil node knows everyone. -/
def leakyRecords : Records :=
  .ofSets [∅, ((∅ : NodeSet).insert 2).insert 1 |>.insert 0, ∅]

theorem verify_judges_trio :
    Gossip.trioRecords.size = Gossip.trio.size ∧ Gossip.trioRecords.InRange 3 ∧
    Gossip.trioRecords.Verdict Gossip.trio (.ok ⟨[⟨2, "c", ⟨[]⟩, 0, 2⟩], 2, 1⟩) ∧
    leakyRecords.size = Gossip.trio.size ∧ leakyRecords.InRange 3 ∧
    leakyRecords.Verdict Gossip.trio (.error (.violated (.sybilLearnedHonest "b" "a"))) := by
  have inRange : Gossip.trioRecords.InRange 3 := by decide +kernel
  have inRange' : leakyRecords.InRange 3 := by decide +kernel
  obtain ⟨judged, _⟩ := verify_judges Gossip.trio Gossip.trioRecords rfl inRange
  obtain ⟨judged', _⟩ := verify_judges Gossip.trio leakyRecords rfl inRange'
  exact ⟨rfl, inRange, (judged _).1 rfl, rfl, inRange', (judged' _).1 rfl⟩

end Records

end SloppyGroup
