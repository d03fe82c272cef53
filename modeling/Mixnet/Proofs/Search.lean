import Mathlib.Data.Finset.Card
import Mathlib.Data.Finset.Range
import Mixnet.Proofs.Reachability

/-!
# The search for a way back

Before an edge is added, its source is searched for from its target, depth first and with one set of
marks that all branches share.  A branch that meets a mark gives up, so what matters is that giving
up never hides a path: a search that has found nothing has marked modules together with all their
outputs.

## Main definitions

* `Wiring.search`, `Wiring.searchAny`: the recursion on modules and on lists of them
* `Wiring.Explored`: what the search leaves behind that it has finished
* `Wiring.Searched`: what a search comes to

## Main statements

* `Wiring.search_spec`: a search never faults, and comes to that
* `Wiring.search_exact`: begun without marks, it finds a module exactly if there is a path to it

## Design notes

A search answers its marks together with the fact that they only grow.  This is what makes the
recursion well-founded: it goes from a module to its outputs only after one more module has been
marked, whether the wiring has a cycle or not.
-/

namespace Mixnet

open Graph (Feeds)

namespace Wiring

/-! ## Marks -/

/-- Marks made after others: for as many modules, and none of them taken back. -/
structure Later (visited : Array Bool) where
  marks : Array Bool
  size_eq : marks.size = visited.size
  kept : ∀ module : Nat, visited[module]? = some true → marks[module]? = some true

namespace Later

variable {visited : Array Bool}

/-- The marks as they are. -/
def refl (visited : Array Bool) : Later visited := ⟨visited, rfl, fun _ marked => marked⟩

/-- The marks of two searches, one after the other. -/
def trans (first : Later visited) (second : Later first.marks) : Later visited where
  marks := second.marks
  size_eq := second.size_eq.trans first.size_eq
  kept module marked := second.kept module (first.kept module marked)

/-- One more module is marked. -/
def mark (visited : Array Bool) (module : Nat) : Later visited where
  marks := visited.setIfInBounds module true
  size_eq := Array.size_setIfInBounds
  kept other marked := by
    obtain ⟨inside, -⟩ := Array.getElem?_eq_some_iff.mp marked
    rw [Array.getElem?_setIfInBounds]
    split_ifs with same within
    · rfl
    · exact absurd (same ▸ inside) within
    · exact marked

@[simp] theorem marks_refl : (refl visited).marks = visited := rfl

@[simp]
theorem marks_trans (first : Later visited) (second : Later first.marks) :
    (first.trans second).marks = second.marks := rfl

/-- Marking a module marks that one. -/
theorem getElem?_mark {module other : Nat} (known : module < visited.size) :
    (mark visited module).marks[other]? = some true ↔
      other = module ∨ visited[other]? = some true := by
  unfold mark
  rw [Array.getElem?_setIfInBounds]
  by_cases same : module = other
  · simp [same, same ▸ known]
  · simp [same, Ne.symm same]

end Later

/-- The modules that are not marked. -/
def unmarked (visited : Array Bool) : Finset Nat :=
  {module ∈ Finset.range visited.size | visited[module]? = some false}

@[simp]
theorem mem_unmarked {visited : Array Bool} {module : Nat} :
    module ∈ unmarked visited ↔ visited[module]? = some false := by
  simp only [unmarked, Finset.mem_filter, Finset.mem_range, and_iff_right_iff_imp]
  exact fun unmarked => (Array.getElem?_eq_some_iff.mp unmarked).1

theorem Later.unmarked_subset {visited : Array Bool} (later : Later visited) :
    unmarked later.marks ⊆ unmarked visited := by
  intro module unmarked
  rw [mem_unmarked] at unmarked ⊢
  obtain ⟨inside, -⟩ := Array.getElem?_eq_some_iff.mp unmarked
  rw [later.size_eq] at inside
  cases before : visited[module] with
  | false => rw [Array.getElem?_eq_getElem inside, before]
  | true =>
      have marked := later.kept module (by rw [Array.getElem?_eq_getElem inside, before])
      rw [unmarked] at marked
      cases marked

theorem Later.card_unmarked_le {visited : Array Bool} (later : Later visited) :
    (unmarked later.marks).card ≤ (unmarked visited).card :=
  Finset.card_le_card later.unmarked_subset

/-- Marking a module leaves fewer that are not marked. -/
theorem card_unmarked_mark_lt {visited : Array Bool} {module : Nat}
    (unseen : visited[module]? = some false) :
    (unmarked (Later.mark visited module).marks).card < (unmarked visited).card := by
  apply Finset.card_lt_card
  refine ⟨(Later.mark visited module).unmarked_subset, fun back => ?_⟩
  have marked := (Later.getElem?_mark (Array.getElem?_eq_some_iff.mp unseen).1).mpr (Or.inl rfl)
  have still := back (mem_unmarked.mpr unseen)
  rw [mem_unmarked, marked] at still
  cases still

/-! ## The search -/

mutual

/-- Searches for a module from another one.  A module that is marked has been searched from before;
any other is marked, and searched from through its outputs. -/
def search (wiring : Wiring) (wanted current : Nat) (visited : Array Bool) :
    Except Fault (Bool × Later visited) :=
  if current = wanted then .ok (true, .refl visited)
  else
    match unseen : visited[current]? with
    | none => .error (.indexOutOfBounds visited.size current)
    | some true => .ok (false, .refl visited)
    | some false => do
      have := card_unmarked_mark_lt unseen
      let marked := Later.mark visited current
      let (found, later) ← searchAny wiring wanted (wiring.outputsOf current) marked.marks
      return (found, marked.trans later)
termination_by ((unmarked visited).card, 0)
decreasing_by exact Prod.Lex.left _ _ this

/-- Searches for a module from one module after another, up to the first that leads to it. -/
def searchAny (wiring : Wiring) (wanted : Nat) :
    List Nat → (visited : Array Bool) → Except Fault (Bool × Later visited)
  | [], visited => .ok (false, .refl visited)
  | next :: rest, visited => do
    let (found, later) ← search wiring wanted next visited
    if found then return (true, later)
    else
      let (found, last) ← searchAny wiring wanted rest later.marks
      return (found, later.trans last)
termination_by pending visited => ((unmarked visited).card, pending.length + 1)
decreasing_by
  · exact Prod.Lex.right _ (Nat.succ_pos _)
  · rcases later.card_unmarked_le.lt_or_eq with fewer | same
    · exact Prod.Lex.left _ _ fewer
    · rw [same]
      exact Prod.Lex.right _ (by simp)

end

/-! ## What the search is worth -/

section

variable {wiring : Wiring} {wanted current module : Nat} {before visited after : Array Bool}

/-- What a search has finished between two states of the marks: it has not come across the module
wanted, and whatever an edge leads to from there is marked, too. -/
def Explored (wiring : Wiring) (wanted : Nat) (before after : Array Bool) : Prop :=
  ∀ module, before[module]? ≠ some true → after[module]? = some true →
    module ≠ wanted ∧ ∀ next, (module, next) ∈ wiring.edges → after[next]? = some true

theorem Explored.refl (wiring : Wiring) (wanted : Nat) (visited : Array Bool) :
    wiring.Explored wanted visited visited :=
  fun _ fresh marked => absurd marked fresh

/-- What is finished stays finished while others are searched from. -/
theorem Explored.trans {first : Later before} {second : Later first.marks}
    (one : wiring.Explored wanted before first.marks)
    (other : wiring.Explored wanted first.marks second.marks) :
    wiring.Explored wanted before second.marks := by
  intro module fresh marked
  by_cases earlier : first.marks[module]? = some true
  · obtain ⟨different, outputs⟩ := one module fresh earlier
    exact ⟨different, fun next edge => second.kept next (outputs next edge)⟩
  · exact other module earlier marked

/-- What a search from `pending` modules comes to: the module wanted is on a path from one of
them, or they are marked, and nothing has been marked that is not finished. -/
structure Searched (wiring : Wiring) (wanted : Nat) (pending : List Nat) (visited : Array Bool)
    (found : Bool) (later : Later visited) : Prop where
  reaches : found = true → ∃ next ∈ pending, Feeds wiring next wanted
  marks : found = false → ∀ next ∈ pending, later.marks[next]? = some true
  explored : found = false → wiring.Explored wanted visited later.marks

namespace Searched

variable {pending rest : List Nat} {found : Bool} {next : Nat}

/-- A search that has nothing to do but find marks. -/
theorem idle (marked : ∀ next ∈ pending, visited[next]? = some true) :
    Searched wiring wanted pending visited false (.refl visited) :=
  ⟨nofun, fun _ => marked, fun _ => .refl wiring wanted visited⟩

/-- A search that is over at once. -/
theorem arrived : Searched wiring wanted [wanted] visited true (.refl visited) :=
  ⟨fun _ => ⟨wanted, List.mem_cons_self, .refl⟩, nofun, nofun⟩

/-- A module is searched from through its outputs, and finished once they are: nothing but its own
mark has been made before them. -/
theorem through {later : Later (Later.mark visited current).marks} (known : current < visited.size)
    (different : current ≠ wanted)
    (outputs : Searched wiring wanted (wiring.outputsOf current) _ found later) :
    Searched wiring wanted [current] visited found ((Later.mark visited current).trans later) where
  reaches hit := by
    obtain ⟨next, member, feeds⟩ := outputs.reaches hit
    exact ⟨current, List.mem_cons_self, feeds.head (mem_outputsOf.mp member)⟩
  marks _ := by
    rw [List.forall_mem_singleton]
    exact later.kept current ((Later.getElem?_mark known).mpr (Or.inl rfl))
  explored missed := by
    intro module fresh marked
    by_cases same : module = current
    · subst same
      exact ⟨different, fun next edge => outputs.marks missed next (mem_outputsOf.mpr edge)⟩
    · refine outputs.explored missed module (fun already => ?_) marked
      exact ((Later.getElem?_mark known).mp already).elim same fresh

/-- What has been found from one module needs no other. -/
theorem here {later : Later visited} (found : Searched wiring wanted [next] visited true later) :
    Searched wiring wanted (next :: rest) visited true later := by
  refine ⟨fun hit => ?_, nofun, nofun⟩
  obtain ⟨other, member, feeds⟩ := found.reaches hit
  exact ⟨next, List.mem_cons_self, List.mem_singleton.mp member ▸ feeds⟩

/-- Where nothing has been found from one module, the others are searched from with the marks that
it has left. -/
theorem behind {later : Later visited} {last : Later later.marks}
    (missed : Searched wiring wanted [next] visited false later)
    (others : Searched wiring wanted rest later.marks found last) :
    Searched wiring wanted (next :: rest) visited found (later.trans last) where
  reaches hit := by
    obtain ⟨other, member, feeds⟩ := others.reaches hit
    exact ⟨other, List.mem_cons_of_mem next member, feeds⟩
  marks none_found :=
    List.forall_mem_cons.mpr ⟨last.kept next (missed.marks rfl next List.mem_cons_self),
      others.marks none_found⟩
  explored none_found := (missed.explored rfl).trans (others.explored none_found)

end Searched

/-- The edges lead from and to modules that exist. -/
def Bounded (wiring : Wiring) : Prop :=
  ∀ edge ∈ wiring.edges, edge.1 < wiring.size ∧ edge.2 < wiring.size

mutual

/-- **A search ends without a fault**, and with what it is meant to come to. -/
theorem search_spec (bounded : wiring.Bounded) (wanted current : Nat) (visited : Array Bool)
    (size_eq : visited.size = wiring.size) (known : current < wiring.size) :
    ∃ found later, wiring.search wanted current visited = .ok (found, later) ∧
      Searched wiring wanted [current] visited found later := by
  unfold search
  by_cases same : current = wanted
  · subst same
    exact ⟨true, _, if_pos rfl, .arrived⟩
  · rw [if_neg same]
    have inside : current < visited.size := size_eq ▸ known
    split
    case h_1 outside => simp [inside] at outside
    case h_2 marked => exact ⟨false, _, rfl, .idle (List.forall_mem_singleton.mpr marked)⟩
    case h_3 unseen =>
      have := card_unmarked_mark_lt unseen
      obtain ⟨found, later, searched, outputs⟩ := searchAny_spec bounded wanted
        (wiring.outputsOf current) (Later.mark visited current).marks
        ((Later.mark visited current).size_eq.trans size_eq)
        fun next member => (bounded (current, next) (mem_outputsOf.mp member)).2
      refine ⟨found, (Later.mark visited current).trans later, ?_, outputs.through inside same⟩
      simp only [searched, Fault.ok_bind]
      rfl
termination_by ((unmarked visited).card, 0)
decreasing_by exact Prod.Lex.left _ _ this

theorem searchAny_spec (bounded : wiring.Bounded) (wanted : Nat) (pending : List Nat)
    (visited : Array Bool) (size_eq : visited.size = wiring.size)
    (known : ∀ next ∈ pending, next < wiring.size) :
    ∃ found later, wiring.searchAny wanted pending visited = .ok (found, later) ∧
      Searched wiring wanted pending visited found later := by
  match pending, known with
  | [], _ =>
      unfold searchAny
      exact ⟨false, _, rfl, .idle (by simp)⟩
  | next :: rest, known =>
      obtain ⟨first, others⟩ := List.forall_mem_cons.mp known
      obtain ⟨found, later, searched, one⟩ :=
        search_spec bounded wanted next visited size_eq first
      unfold searchAny
      rw [searched, Fault.ok_bind]
      cases found with
      | true => exact ⟨true, later, rfl, one.here⟩
      | false =>
          obtain ⟨found, last, searched, more⟩ :=
            searchAny_spec bounded wanted rest later.marks (later.size_eq.trans size_eq) others
          refine ⟨found, later.trans last, ?_, one.behind more⟩
          simp only [searched, Fault.ok_bind]
          rfl
termination_by ((unmarked visited).card, pending.length + 1)
decreasing_by
  · exact Prod.Lex.right _ (Nat.succ_pos _)
  · rcases later.card_unmarked_le.lt_or_eq with fewer | same
    · exact Prod.Lex.left _ _ fewer
    · rw [same]
      exact Prod.Lex.right _ (by simp)

end

/-- **The search is exact**: begun without marks it ends, on every wiring, and it finds a module
exactly if there is a path to it. -/
theorem search_exact (bounded : wiring.Bounded) (known : current < wiring.size) (wanted : Nat) :
    ∃ found later,
      wiring.search wanted current (Array.replicate wiring.size false) = .ok (found, later) ∧
        (found = true ↔ Feeds wiring current wanted) := by
  obtain ⟨found, later, searched, outcome⟩ :=
    search_spec bounded wanted current (Array.replicate wiring.size false)
      Array.size_replicate known
  refine ⟨found, later, searched, fun hit => ?_, fun feeds => ?_⟩
  · obtain ⟨next, member, feeds⟩ := outcome.reaches hit
    exact List.mem_singleton.mp member ▸ feeds
  · by_contra missed
    rw [Bool.not_eq_true] at missed
    have unmarked (module : Nat) : (Array.replicate wiring.size false)[module]? ≠ some true := by
      simp [Array.getElem?_replicate]
    have explored := outcome.explored missed
    -- Nothing was marked before, so everything that is marked is finished: marks follow the path.
    have followed {module : Nat} (path : Feeds wiring current module) :
        later.marks[module]? = some true := by
      induction path with
      | refl => exact outcome.marks missed current List.mem_cons_self
      | tail _ edge ih => exact (explored _ (unmarked _) ih).2 _ edge
    exact (explored wanted (unmarked wanted) (followed feeds)).1 rfl

end

end Wiring

end Mixnet
