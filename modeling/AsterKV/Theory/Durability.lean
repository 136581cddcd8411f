/-
# Theory.Durability -- what survives a power loss

A disk takes appends into a cache, and a sync that succeeds makes everything written
so far durable.  `Disk` keeps both, and counts the syncs that were asked for.  Whatever
the history, what is durable is a first part of what was written (`durable_prefix`).
-/
import Mathlib.Data.List.Basic

namespace Theory.Durability

set_option autoImplicit false

universe u

variable {α : Type u}

/-- What one operation does to the disk. -/
inductive Effect (α : Type u) where
  | append (data : List α)
  | sync (done : Bool)
  | none

structure Disk (α : Type u) where
  written : List α
  durable : List α
  /-- How often a sync was asked for. -/
  syncs : Nat

namespace Disk

def empty : Disk α := ⟨[], [], 0⟩

def after (disk : Disk α) : Effect α → Disk α
  | .append data => { disk with written := disk.written ++ data }
  | .sync true => { disk with durable := disk.written, syncs := disk.syncs + 1 }
  | .sync false => { disk with syncs := disk.syncs + 1 }
  | .none => disk

def run (disk : Disk α) (effects : List (Effect α)) : Disk α := effects.foldl after disk

/-- Everything written is durable. -/
def Settled (disk : Disk α) : Prop := disk.durable = disk.written

@[simp] theorem written_append (disk : Disk α) (data : List α) :
    (disk.after (.append data)).written = disk.written ++ data := rfl
@[simp] theorem syncs_append (disk : Disk α) (data : List α) :
    (disk.after (.append data)).syncs = disk.syncs := rfl
@[simp] theorem written_sync (disk : Disk α) (done : Bool) :
    (disk.after (.sync done)).written = disk.written := by cases done <;> rfl

theorem settled_sync (disk : Disk α) : (disk.after (.sync true)).Settled := rfl

theorem run_concat (disk : Disk α) (effects : List (Effect α)) (effect : Effect α) :
    disk.run (effects ++ [effect]) = (disk.run effects).after effect := by
  simp [run]

/-- Two appends are one. -/
theorem append_append (disk : Disk α) (first second : List α) :
    (disk.after (.append first)).after (.append second) =
      disk.after (.append (first ++ second)) := by
  simp [after]

@[simp] theorem append_nil (disk : Disk α) : disk.after (.append []) = disk := by
  simp [after]

/-- **What is durable is a first part of what was written.** -/
theorem durable_prefix (effects : List (Effect α)) {disk : Disk α}
    (start : disk.durable <+: disk.written) :
    (disk.run effects).durable <+: (disk.run effects).written := by
  induction effects generalizing disk with
  | nil => exact start
  | cons effect effects ih =>
      refine ih ?_
      cases effect with
      | append data => exact start.trans (List.prefix_append _ _)
      | sync done =>
          cases done with
          | true => exact List.prefix_refl _
          | false => exact start
      | none => exact start

end Disk

end Theory.Durability
