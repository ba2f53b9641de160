import ShaderShrink.Proofs.Change.Irreducible
import ShaderShrink.Proofs.Reduction.Greedy
import ShaderShrink.Proofs.Reduction.Skeleton

/-!
# Reductions that keep everything

If the oracle finds every program interesting and there are no limits, a reduction goes on until
nothing is found, which is so of empty entry points alone (`FinderConfig.find_eq_nil_iff`). As no
candidate touches the headers of entry points, what is left is determined by the program that it
started with: its entry points with empty bodies, the `Program.shells` (`Reducer.reduce_to_shells`).
-/

namespace ShaderShrink

open Arena

variable {σ : Type}

/-- The function with an empty body, if it has the given name. -/
def Decl.shell? (entry : String) : Decl → Option Decl
  | .global .. => none
  | .function returnType name params _ =>
    if name = entry then some (.function returnType name params []) else none

/-- The functions of the given name, with empty bodies. -/
def Program.shells (entry : String) (p : Program) : Program :=
  ⟨p.declarations.filterMap (Decl.shell? entry)⟩

/-- A function with an empty body that has the header. -/
def DeclHeader.shell : DeclHeader → Decl
  | .global ty name _ => .global ty name none
  | .function returnType name params => .function returnType name params []

section
variable {entry : String} {p q : Program}

/-- Shells can be told from headers. -/
theorem Program.shells_eq (entry : String) (p : Program) :
    p.shells entry = ⟨(p.headers.filter (·.isFunction entry)).map DeclHeader.shell⟩ := by
  rw [shells, headers]
  congr 1
  induction p.declarations with
  | nil => rfl
  | cons d rest ih =>
    cases d with
    | global ty name init => exact ih
    | function returnType name params body =>
      rw [List.map_cons, List.filter_cons, List.filterMap_cons, ih]
      by_cases h : name = entry <;> simp [Decl.shell?, Decl.header, DeclHeader.isFunction, h,
        DeclHeader.shell]

/-- Trimming keeps the shells. -/
theorem Program.Trims.shells_eq (h : p.Trims entry q) : q.shells entry = p.shells entry := by
  rw [Program.shells_eq, Program.shells_eq, h.entries]

/-- A program of empty entry points consists of its shells. -/
theorem Program.IsHollow.shells_eq (h : p.IsHollow entry) : p.shells entry = p := by
  have hall : ∀ d ∈ p.declarations, d.shell? entry = some d := by
    intro d hd
    obtain ⟨returnType, params, rfl⟩ := h d hd
    exact if_pos rfl
  rw [shells, List.filterMap_congr hall, List.filterMap_some]

end

/-- Something is found exactly if there are candidates. -/
theorem FinderConfig.find_eq_nil_of_candidates {config : FinderConfig} {p : Program}
    (h : config.candidates p = []) : config.find (ofProgram p) = [] := by
  have hmap := config.map_candidates p
  rw [h] at hmap
  exact List.map_eq_nil_iff.1 hmap.symm

namespace Reducer

section
variable {r : Reducer σ} {entry : String} (hf : r.finder = .everything entry)
  (hv : ∀ q s, r.verdict q s = .interesting)
include hf hv

/-- The greedy search ends with the shells. -/
theorem greedy_eq_shells (p : Program) (s : σ) : (r.greedy p s).1 = p.shells entry := by
  induction hn : p.size using Nat.strong_induction_on generalizing p s with
  | _ n ih =>
    cases hc : r.finder.candidates p with
    | nil =>
      have hnil := FinderConfig.find_eq_nil_of_candidates hc
      rw [hf, FinderConfig.find_eq_nil_iff] at hnil
      rw [greedy_of_none (by rw [hc]; rfl), hnil.shells_eq]
    | cons q rest =>
      have hq : q ∈ r.finder.candidates p := hc ▸ List.mem_cons_self
      have hlt := FinderConfig.size_lt_of_mem_candidates hq
      have htrims := FinderConfig.trims_of_mem_candidates hq
      rw [hf] at htrims
      have hfirst : r.firstInteresting (r.finder.candidates p) s = (some q, r.asked q s) := by
        rw [hc, firstInteresting, if_pos (hv q s)]
      rw [greedy_of_some hfirst, ih q.size (hn ▸ hlt) q _ rfl]
      exact htrims.shells_eq

variable (hb : r.config.budget = .unlimited)
include hb

/-- The search stops at a fixpoint with the shells, whether the question about the unchanged program
is asked or not. -/
theorem search_eq_shells (p : Program) (s : σ) :
    ∃ run, r.search (initial p s) = (.stopped .fixpoint, run) ∧
      (ofProgram (p.shells entry)).Padded run.arena := by
  have hstart : (initial p s).arena = ofProgram p := rfl
  obtain ⟨halt, run, he, ha, h⟩ := r.check_cases hstart
  have hgo : halt = none := by
    rcases h with ⟨rfl, -⟩ | h
    · rfl
    · cases h with
      | spent hs =>
        rw [questionsSpent, hb] at hs
        cases hs
      | passed => rfl
      | failed _ hne => exact absurd (hv _ _) hne
  subst hgo
  have hn : p.size < run.arena.liveCount + 1 := by
    rw [ha, liveCount_ofProgram]
    exact Nat.lt_succ_self _
  obtain ⟨last, hlast, -, hpad⟩ := rounds_unlimited hb run hn ha
  rw [greedy_eq_shells hf hv] at hpad
  exact ⟨last, by rw [search_eq, he]; exact hlast, hpad⟩

end

/-- Nothing but empty entry points is irreducible: if all kinds of changes are looked for, nothing
is found in a program exactly if all its declarations are entry points with empty bodies. So a
reduction without limits that finds every candidate interesting stops at a fixpoint, with the entry
points of the program in their order and with their headers, each with an empty body. -/
theorem reduce_to_shells (entry : String) :
    (∀ p : Program, (FinderConfig.everything entry).find (ofProgram p) = [] ↔
      ∀ d ∈ p.declarations, ∃ returnType params, d = .function returnType entry params []) ∧
    ∀ (r : Reducer σ) (p : Program) (s : σ),
      r.finder = .everything entry → r.config.budget = .unlimited →
      (∀ text s, (r.oracle text s).1 = .interesting) →
      ∃ outcome, (r.reduce (ofProgram p) s).1 = .ok outcome ∧
        outcome.report.termination = .fixpoint ∧
        outcome.arena.toProgram = .ok (p.shells entry) := by
  refine ⟨FinderConfig.find_eq_nil_iff entry, fun r p s hf hb hv => ?_⟩
  obtain ⟨run, he, hpad⟩ := search_eq_shells hf (fun q => hv (r.text q)) hb p s
  obtain ⟨outcome, ho, harena, hreason, -, -⟩ := r.finish_spec .fixpoint hpad
  refine ⟨outcome, ?_, hreason, by rw [harena, toProgram_ofProgram]⟩
  rw [reduce, start_ofProgram, ← initial]
  simp only [he, ho]

/-- Of `int x; void main() { ; } void f() { } float main(int a) { return; }` the two functions named
`main` are left. -/
theorem reduce_to_shells_main :
    let p : Program := ⟨[.global "int" "x" none, .function "void" "main" [] [.empty],
      .function "void" "f" [] [], .function "float" "main" [⟨"int", "a"⟩] [.ret none]]⟩
    let r : Reducer Unit :=
      ⟨⟨"job", "glsl", .unlimited, true, "trace"⟩, .everything "main",
        fun _ s => (.interesting, s), fun _ => 0⟩
    ∃ outcome, (r.reduce (ofProgram p) ()).1 = .ok outcome ∧
      outcome.report.termination = .fixpoint ∧
      outcome.arena.toProgram = .ok
        ⟨[.function "void" "main" [] [], .function "float" "main" [⟨"int", "a"⟩] []]⟩ := by
  intro p r
  have hshells : p.shells "main" =
      ⟨[.function "void" "main" [] [], .function "float" "main" [⟨"int", "a"⟩] []]⟩ := by decide
  rw [← hshells]
  exact (reduce_to_shells "main").2 r p () rfl rfl fun _ _ => rfl

end Reducer

end ShaderShrink
