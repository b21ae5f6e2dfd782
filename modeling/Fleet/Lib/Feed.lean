/- A numbered log handed out in order to a reader who may stop and resume. -/
import Mathlib.Data.List.Basic
import Mathlib.Order.Lattice
import Mathlib.Tactic.Common

namespace Fleet.Lib

/-- What a reader is sent: an entry of the log, or a mark that carries a number
without an entry. -/
inductive Item (ε κ : Type) where
  | entry (e : ε)
  | mark (n : κ)
  deriving DecidableEq

namespace Feed
variable {ε κ : Type} (number : ε → κ)

def entry? : Item ε κ → Option ε
  | .entry e => some e
  | .mark _ => none

def entries (sent : List (Item ε κ)) : List ε := sent.filterMap entry?

def numberOf : Item ε κ → κ
  | .entry e => number e
  | .mark n => n

/-- The number of the last item; without one, the number the reader came with. -/
def reached : κ → List (Item ε κ) → κ
  | last, [] => last
  | _, i :: sent => reached (numberOf number i) sent

theorem reached_append (last : κ) (xs ys : List (Item ε κ)) :
    reached number last (xs ++ ys) = reached number (reached number last xs) ys := by
  induction xs generalizing last with
  | nil => rfl
  | cons i xs ih => exact ih (numberOf number i)

theorem reached_eq_getLast (last : κ) (sent : List (Item ε κ)) :
    reached number last sent = (sent.getLast?.map (numberOf number)).getD last := by
  induction sent generalizing last with
  | nil => rfl
  | cons i sent ih =>
      rw [reached, ih, List.getLast?_cons]
      cases sent.getLast? <;> rfl

@[simp] theorem entries_append (xs ys : List (Item ε κ)) :
    entries (xs ++ ys) = entries xs ++ entries ys := List.filterMap_append

variable [LinearOrder κ]

def Increasing (log : List ε) : Prop := (log.map number).Pairwise (· < ·)

def beyond (log : List ε) (last : κ) : List ε := log.filter (fun e => last < number e)

/-- Each entry sent is the next one of the log, each mark repeats the number
reached. -/
inductive Consecutive (log : List ε) : κ → List (Item ε κ) → Prop
  | stop (last : κ) : Consecutive log last []
  | entry {last : κ} {e : ε} {rest : List ε} {sent : List (Item ε κ)}
      (next : beyond number log last = e :: rest) (more : Consecutive log (number e) sent) :
      Consecutive log last (.entry e :: sent)
  | mark {last : κ} {sent : List (Item ε κ)} (more : Consecutive log last sent) :
      Consecutive log last (.mark last :: sent)

variable {number} {log log' : List ε} {last : κ} {sent : List (Item ε κ)}

theorem mem_beyond {e : ε} : e ∈ beyond number log last ↔ e ∈ log ∧ last < number e := by
  rw [beyond, List.mem_filter, decide_eq_true_eq]

theorem Increasing.sublist (h : Increasing number log) (sub : log'.Sublist log) :
    Increasing number log' := List.Pairwise.sublist (sub.map number) h

theorem beyond_grow (grown : log <+: log') (last : κ) :
    beyond number log last <+: beyond number log' last := grown.filter _

theorem beyond_next (increasing : Increasing number log) {e : ε} {rest : List ε}
    (next : beyond number log last = e :: rest) : beyond number log (number e) = rest := by
  have above : last < number e := (mem_beyond.mp (next ▸ List.mem_cons_self)).2
  have narrowed : beyond number log (number e) =
      (beyond number log last).filter (fun x => number e < number x) := by
    rw [beyond, beyond, List.filter_filter]
    apply List.filter_congr
    intro x _
    simpa using fun later => above.trans later
  have sorted : Increasing number (e :: rest) := by
    rw [← next]
    exact increasing.sublist List.filter_sublist
  have later := (List.pairwise_cons.mp sorted).1
  rw [narrowed, next, List.filter_cons_of_neg (by simp), List.filter_eq_self]
  intro x member
  simpa using later (number x) (List.mem_map_of_mem member)

namespace Consecutive

theorem take (h : Consecutive number log last sent) (n : Nat) :
    Consecutive number log last (sent.take n) := by
  induction h generalizing n with
  | stop last =>
      rw [List.take_nil]
      exact .stop last
  | entry next more ih =>
      cases n with
      | zero => exact .stop _
      | succ n => exact .entry next (ih n)
  | mark more ih =>
      cases n with
      | zero => exact .stop _
      | succ n => exact .mark (ih n)

/-- A reader who resumes from the last number received goes on where it stopped. -/
theorem append {more : List (Item ε κ)} (h : Consecutive number log last sent)
    (resumed : Consecutive number log (reached number last sent) more) :
    Consecutive number log last (sent ++ more) := by
  induction h with
  | stop last => exact resumed
  | entry next _ ih => exact .entry next (ih resumed)
  | mark _ ih => exact .mark (ih resumed)

/-- What lies beyond the start was sent, or lies beyond the number reached. -/
theorem beyond_eq (h : Consecutive number log last sent) (increasing : Increasing number log) :
    beyond number log last = entries sent ++ beyond number log (reached number last sent) := by
  induction h with
  | stop last => rfl
  | entry next _ ih =>
      rw [beyond_next increasing next] at ih
      rw [next, ih]
      rfl
  | mark _ ih => exact ih

theorem entries_prefix (h : Consecutive number log last sent)
    (increasing : Increasing number log) : entries sent <+: beyond number log last :=
  ⟨_, (h.beyond_eq increasing).symm⟩

/-- Two readers of one log who came with the same number differ only in how far
they got. -/
theorem comparable {sent' : List (Item ε κ)} (h : Consecutive number log last sent)
    (h' : Consecutive number log last sent') (increasing : Increasing number log) :
    entries sent <+: entries sent' ∨ entries sent' <+: entries sent :=
  List.prefix_or_prefix_of_prefix (h.entries_prefix increasing) (h'.entries_prefix increasing)

end Consecutive
end Feed
end Fleet.Lib
