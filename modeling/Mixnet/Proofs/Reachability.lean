import Mixnet.Proofs.Wiring

/-!
# Reachability and cycles

Whether a module can be reached is computed in rounds of growth.  This file shows that the rounds
are enough: they find the modules on the paths from a module, all of them and no others.  Refusing
an edge whose source can be reached from its target is therefore what keeps a wiring free of
cycles.

## Main definitions

* `Wiring.Closed`: modules together with all their outputs
* `Wiring.Acyclic`: a wiring whose modules can be ranked along the edges

## Main statements

* `Wiring.mem_reachableFrom`: the search finds exactly the modules that can be reached
* `Wiring.rank_le_of_feeds`: what can be reached does not rank lower
* `Graph.Wired.acyclic`: a wired graph has an acyclic wiring

## Design notes

Acyclic is defined by ranks and not by the absence of cycles.  A new edge only lifts what can be
reached from its target, so the ranks of a wiring are made from the ranks before, and no path ever
has to be cut open.
-/

namespace Mixnet

open Graph (Feeds)

namespace Wiring

variable {wiring after : Wiring} {seen : List Nat} {module source target : Nat}

/-! ## What the search finds -/

theorem subset_growTimes (times : Nat) : seen ⊆ wiring.growTimes times seen := by
  induction times generalizing seen with
  | zero => exact List.Subset.refl seen
  | succ times ih => exact List.Subset.trans (List.subset_append_left seen _) ih

/-! ## When growth ends -/

/-- Modules together with all their outputs. -/
def Closed (wiring : Wiring) (seen : List Nat) : Prop :=
  ∀ source ∈ seen, ∀ target, (source, target) ∈ wiring.edges → target ∈ seen

/-- What can be reached from closed modules is among them. -/
theorem Closed.mem_of_feeds (closed : wiring.Closed seen) (known : source ∈ seen)
    (feeds : Feeds wiring source target) : target ∈ seen := by
  induction feeds with
  | refl => exact known
  | tail _ edge ih => exact closed _ ih _ edge

/-- Closed modules do not grow. -/
theorem Closed.growTimes_eq (closed : wiring.Closed seen) (times : Nat) :
    wiring.growTimes times seen = seen := by
  have same : wiring.grow seen = seen := by
    have none_new : (seen.flatMap wiring.outputsOf).filter (!seen.contains ·) = [] := by
      rw [List.filter_eq_nil_iff]
      intro target found
      obtain ⟨source, known, edge⟩ := List.mem_flatMap.mp found
      have inside := closed source known target (mem_outputsOf.mp edge)
      simpa using inside
    rw [grow, none_new, List.eraseDups_nil, List.append_nil]
  induction times with
  | zero => rfl
  | succ times ih => rw [growTimes, same, ih]

/-- Modules that are not closed grow. -/
theorem lt_length_grow (not_closed : ¬ wiring.Closed seen) :
    seen.length < (wiring.grow seen).length := by
  unfold Closed at not_closed
  push Not at not_closed
  obtain ⟨source, known, target, edge, fresh⟩ := not_closed
  have grown : target ∈ wiring.grow seen := mem_grow.mpr (Or.inr ⟨source, known, edge⟩)
  rw [grow, List.mem_append] at grown
  rw [grow, List.length_append]
  have new := List.length_pos_of_mem (grown.resolve_left fresh)
  omega

theorem nodup_eraseDups (modules : List Nat) : modules.eraseDups.Nodup := by
  -- By induction on the length, because a head is erased from the whole tail at once.
  induction size_eq : modules.length using Nat.strongRecOn generalizing modules with
  | ind size ih =>
    cases modules with
    | nil => exact List.nodup_nil
    | cons module rest =>
        have shorter := List.length_filter_le (!· == module) rest
        rw [List.length_cons] at size_eq
        rw [List.eraseDups_cons, List.nodup_cons]
        exact ⟨by simp, ih _ (by omega) _ rfl⟩

theorem nodup_grow (distinct : seen.Nodup) : (wiring.grow seen).Nodup := by
  refine List.nodup_append'.mpr ⟨distinct, nodup_eraseDups _, ?_⟩
  intro module old new
  rw [List.mem_eraseDups, List.mem_filter] at new
  simp [old] at new

/-- Growth stays inside the wiring. -/
theorem Valid.grow_subset (valid : wiring.Valid) (inside : seen ⊆ List.range wiring.size) :
    wiring.grow seen ⊆ List.range wiring.size := by
  intro module member
  rcases mem_grow.mp member with old | ⟨source, -, edge⟩
  · exact inside old
  · exact List.mem_range.mpr (valid.bounds _ edge).2

/-- **Growth is closed when as many rounds as modules were missing have passed**: a round that adds
nothing ends it, and no more can be added than were missing. -/
theorem Valid.closed_growTimes (valid : wiring.Valid) {times : Nat} (distinct : seen.Nodup)
    (inside : seen ⊆ List.range wiring.size) (enough : wiring.size ≤ times + seen.length) :
    wiring.Closed (wiring.growTimes times seen) := by
  induction times generalizing seen with
  | zero =>
      have complete : seen.Perm (List.range wiring.size) :=
        (List.subperm_of_subset distinct inside).perm_of_length_le
          (by rw [List.length_range]; omega)
      intro source _ target edge
      exact complete.mem_iff.mpr (List.mem_range.mpr (valid.bounds _ edge).2)
  | succ times ih =>
      by_cases closed : wiring.Closed seen
      · rwa [closed.growTimes_eq]
      · have grown := lt_length_grow closed
        exact ih (nodup_grow distinct) (valid.grow_subset inside) (by omega)

/-- **The search finds exactly the modules that can be reached.** -/
theorem Valid.mem_reachableFrom (valid : wiring.Valid) (known : source < wiring.size) :
    target ∈ wiring.reachableFrom source ↔ Feeds wiring source target := by
  constructor
  · intro member
    obtain ⟨start, start_mem, feeds⟩ := feeds_of_mem_growTimes member
    rwa [List.mem_singleton.mp start_mem] at feeds
  · intro feeds
    have inside : [source] ⊆ List.range wiring.size := by
      simpa using known
    have closed : wiring.Closed (wiring.reachableFrom source) :=
      valid.closed_growTimes (List.nodup_singleton source) inside (Nat.le_add_right _ _)
    exact closed.mem_of_feeds (subset_growTimes _ List.mem_cons_self) feeds

/-! ## Wirings without cycles -/

/-- A wiring whose modules can be ranked along the edges. -/
def Acyclic (wiring : Wiring) : Prop :=
  ∃ rank : Nat → Nat, ∀ source target, (source, target) ∈ wiring.edges → rank source < rank target

/-- What can be reached does not rank below where the path begins. -/
theorem rank_le_of_feeds {rank : Nat → Nat}
    (rises : ∀ source target, (source, target) ∈ wiring.edges → rank source < rank target)
    (feeds : Feeds wiring source target) : rank source ≤ rank target := by
  induction feeds with
  | refl => exact Nat.le_refl _
  | tail _ edge ih => exact Nat.le_of_lt (Nat.lt_of_le_of_lt ih (rises _ _ edge))

theorem Acyclic.of_edges_eq (acyclic : wiring.Acyclic) (same : after.edges = wiring.edges) :
    after.Acyclic := by
  rwa [Acyclic, same]

/-- An edge closes no cycle if its source cannot be reached from its target. -/
theorem Acyclic.append (acyclic : wiring.Acyclic) (no_way_back : ¬ Feeds wiring target source)
    (edges_eq : after.edges = wiring.edges ++ [(source, target)]) : after.Acyclic := by
  classical
  obtain ⟨rank, rises⟩ := acyclic
  -- What can be reached from the target is lifted above the source.
  refine ⟨fun module =>
    if Feeds wiring target module then rank module + rank source + 1 else rank module, ?_⟩
  intro tail head edge
  dsimp only
  rw [edges_eq, List.mem_append, List.mem_singleton, Prod.mk.injEq] at edge
  rcases edge with old | ⟨rfl, rfl⟩
  · have rank_lt := rises tail head old
    by_cases lifted : Feeds wiring target tail
    · have lifted_too : Feeds wiring target head := lifted.tail old
      rw [if_pos lifted, if_pos lifted_too]
      omega
    · rw [if_neg lifted]
      split <;> omega
  · have lifted : Feeds wiring head head := .refl
    rw [if_neg no_way_back, if_pos lifted]
    omega

theorem Acyclic.connect (acyclic : wiring.Acyclic) (valid : wiring.Valid)
    (connected : wiring.connect source target = .ok after) : after.Acyclic := by
  obtain ⟨-, target_known, -, unreached, rfl⟩ := of_connect connected
  rw [valid.mem_reachableFrom target_known] at unreached
  exact acyclic.append unreached rfl

end Wiring

/-- An edge added to a graph was added to its wiring. -/
theorem Graph.of_connect {graph after : Graph} {source target : Nat}
    (connected : graph.connect source target = .ok after) :
    ∃ wiring, graph.wiring.connect source target = .ok wiring ∧
      after = { graph with wiring := wiring } := by
  unfold Graph.connect at connected
  split at connected
  · cases connected
  · split at connected
    · cases connected
    · injection connected with connected
      exact ⟨_, ‹_›, connected.symm⟩

/-- **A wired graph has an acyclic wiring.** -/
theorem Graph.Wired.acyclic {graph : Graph} (wired : graph.Wired) : graph.wiring.Acyclic := by
  have unconnected : Wiring.empty.Acyclic := ⟨id, fun _ _ edge => absurd edge List.not_mem_nil⟩
  induction wired with
  | create _ => exact unconnected
  | handled _ => exact unconnected
  | addModule _ added ih =>
      obtain ⟨-, added⟩ := Invariant.require_bind_eq_ok.mp added
      injection added with added
      injection added with _ added
      subst added
      exact ih.of_edges_eq rfl
  | connect earlier connected ih =>
      obtain ⟨wiring, made, rfl⟩ := Graph.of_connect connected
      exact ih.connect earlier.valid.1 made
  | setFirst _ marked ih =>
      obtain ⟨wiring, set, marked⟩ := Fault.bind_eq_ok.mp marked
      obtain ⟨-, set⟩ := Invariant.require_bind_eq_ok.mp set
      injection marked with marked
      injection set with set
      subst marked set
      exact ih.of_edges_eq rfl
  | setLast _ marked ih =>
      obtain ⟨wiring, set, marked⟩ := Fault.bind_eq_ok.mp marked
      obtain ⟨-, set⟩ := Invariant.require_bind_eq_ok.mp set
      injection marked with marked
      injection set with set
      subst marked set
      exact ih.of_edges_eq rfl

end Mixnet
