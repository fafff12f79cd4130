import Mathlib.Data.List.Nodup
import Mathlib.Logic.Function.Basic

/-! Singly linked lists over a map of next pointers: the nodes passed from a pointer to the
end, and what a write to one node's pointer leaves of them. -/

namespace Linked

variable {N : Type*}

/-- Following the pointers from `p` passes exactly these nodes and ends. -/
def Chain (next : N → Option N) : Option N → List N → Prop
  | p, [] => p = none
  | p, n :: ns => p = some n ∧ Chain next (next n) ns

variable {next : N → Option N} {p : Option N} {ns ms : List N} {n : N}

@[simp] theorem chain_nil : Chain next p [] ↔ p = none := Iff.rfl

@[simp] theorem chain_cons : Chain next p (n :: ns) ↔ p = some n ∧ Chain next (next n) ns := Iff.rfl

/-- A node the pointer shows is the first one passed. -/
theorem Chain.eq_cons (h : Chain next (some n) ns) :
    ∃ rest, ns = n :: rest ∧ Chain next (next n) rest := by
  cases ns with
  | nil => cases h
  | cons m rest =>
    obtain ⟨hm, hrest⟩ := h
    obtain rfl := Option.some.inj hm
    exact ⟨rest, rfl, hrest⟩

variable [DecidableEq N]

/-- A write to a node that is not passed. -/
theorem chain_update {q : Option N} (hn : n ∉ ns) :
    Chain (Function.update next n q) p ns ↔ Chain next p ns := by
  induction ns generalizing p with
  | nil => rfl
  | cons m ns ih =>
    rw [List.mem_cons, not_or] at hn
    rw [chain_cons, chain_cons, Function.update_of_ne (Ne.symm hn.1), ih hn.2]

/-- Each node but the last points to the one behind it. -/
def link : List N → N → Option N
  | [] => fun _ => none
  | n :: ns => Function.update (link ns) n ns.head?

theorem chain_link (h : ns.Nodup) : Chain (link ns) ns.head? ns := by
  induction ns with
  | nil => rfl
  | cons n ns ih =>
    rw [List.nodup_cons] at h
    refine ⟨rfl, ?_⟩
    rw [link, Function.update_self, chain_update h.1]
    exact ih h.2

end Linked
