/-
  LinuxModules.Lib.NotifierChain

  Chains of blocks that are called one after the other: in the order of their
  priority, among equals in the order in which they were registered, until one of
  them says stop.  A block leaves the chain by `List.erase`.
-/

import Mathlib.Data.List.Basic

namespace LinuxModules.Lib

variable {β : Type _}

/-- `notifier_chain_register`: in front of the first block of a smaller priority. -/
def chainRegister (priority : β → Int) (n : β) : List β → List β
  | [] => [n]
  | b :: bs => if priority b < priority n then n :: b :: bs else b :: chainRegister priority n bs

/-- `NOTIFY_STOP_MASK` -/
def notifyStopMask : BitVec 32 := 0x8000

/-- `notifier_call_chain`: the blocks that are called, and the last result; `ret` is
    the result so far. -/
def callChain (call : β → BitVec 32) : List β → BitVec 32 → List β × BitVec 32
  | [], ret => ([], ret)
  | b :: bs, _ =>
      let ret := call b
      if ret &&& notifyStopMask = notifyStopMask then ([b], ret)
      else ((b :: (callChain call bs ret).1), (callChain call bs ret).2)

/-- A block of no greater priority than the others is called last. -/
theorem chainRegister_eq_append {priority : β → Int} {n : β} {chain : List β}
    (h : ∀ b ∈ chain, priority n ≤ priority b) : chainRegister priority n chain = chain ++ [n] := by
  induction chain with
  | nil => rfl
  | cons b bs ih =>
      have hb := h b (List.mem_cons_self ..)
      rw [chainRegister, if_neg (Int.not_lt.mpr hb),
        ih fun b' hb' => h b' (List.mem_cons_of_mem _ hb'), List.cons_append]

/-- If no block says stop, all are called. -/
theorem callChain_fst {call : β → BitVec 32} {chain : List β}
    (h : ∀ b ∈ chain, call b &&& notifyStopMask ≠ notifyStopMask) (ret : BitVec 32) :
    (callChain call chain ret).1 = chain := by
  induction chain generalizing ret with
  | nil => rfl
  | cons b bs ih =>
      rw [callChain, if_neg (h b (List.mem_cons_self ..)),
        ih fun b' hb' => h b' (List.mem_cons_of_mem _ hb')]

/-- If all blocks return `ret`, so does the chain. -/
theorem callChain_snd {call : β → BitVec 32} {chain : List β} {ret : BitVec 32}
    (h : ∀ b ∈ chain, call b = ret) : (callChain call chain ret).2 = ret := by
  induction chain with
  | nil => rfl
  | cons b bs ih =>
      rw [callChain, h b (List.mem_cons_self ..)]
      split
      · rfl
      · exact ih fun b' hb' => h b' (List.mem_cons_of_mem _ hb')

end LinuxModules.Lib
