/-
  LinuxModules.Proc.Foobar

  The files `foo` and `bar` of `proc/foobar.c`.

  `proc_write_foobar` copies up to 8 bytes straight into the 9-byte value of the
  file and terminates it only when the copy succeeded.  After a fault the value
  is terminated because no write of any length reaches its last byte with
  anything but a NUL, but it need not be the old value.

  `copy_from_user` may fault after copying any part of the data.  The model says
  for each byte whether it was copied, left alone or zeroed.
-/

import LinuxModules.Lib.CString
import LinuxModules.Lib.Run
import Mathlib.Data.Finset.Insert
import Mathlib.Data.Finset.Erase

namespace LinuxModules.Proc

open LinuxModules.Lib

/-- `FOOBAR_LEN` -/
def foobarLen : Nat := 8

/-- `-EFAULT` -/
def negEfault : Int := -14

/-- `-ENOMEM` -/
def negEnomem : Int := -12

/-- `struct fb_data_t` -/
structure FbData where
  name : List Byte
  value : List Byte
  name_length : name.length = foobarLen + 1
  value_length : value.length = foobarLen + 1

/-! ## copy_from_user -/

/-- What `copy_from_user` does to a byte of the destination. -/
inductive Fate where
  | copied
  | left
  | zeroed
  deriving DecidableEq, Repr

/-- The byte that is there afterwards. -/
def Fate.land (src old : Byte) : Fate → Byte
  | .copied => src
  | .left => old
  | .zeroed => 0

/-- `copy_from_user(dst, src, n)`: the destination, and the number of bytes that
    were not copied. -/
def copyFromUser (fate : Nat → Fate) (src : List Byte) (n : Nat) (dst : List Byte) :
    List Byte × Nat :=
  (dst.mapIdx fun i old => if i < n then (fate i).land (src.getD i 0) old else old,
    (List.range n).countP fun i => fate i ≠ .copied)

@[simp] theorem length_copyFromUser (fate : Nat → Fate) (src : List Byte) (n : Nat)
    (dst : List Byte) : (copyFromUser fate src n dst).1.length = dst.length :=
  List.length_mapIdx

/-! ## proc_read_foobar and proc_write_foobar -/

/-- The characters of a C literal. -/
def text (s : String) : List Byte := s.toList.map fun c => BitVec.ofNat 8 c.toNat

/-- `sprintf(page, "%s = %s\n", name, value)`: the page and its length. -/
def sprintfPage (name value : List Byte) : List Byte × Int :=
  let page := name ++ text " = " ++ value ++ text "\n"
  (page, page.length)

/-- `proc_read_foobar`, if both strings end inside their fields. -/
def procReadFoobar (fb : FbData) : Option (List Byte × Int) := do
  let name ← cstr? fb.name
  let value ← cstr? fb.value
  return sprintfPage name value

/-- `len`, for a `count` bytes long `buffer`. -/
def writeLen (buffer : List Byte) : Nat :=
  if foobarLen < buffer.length then foobarLen else buffer.length

def procWriteFoobar (fate : Nat → Fate) (buffer : List Byte) (fb : FbData) : FbData × Int :=
  let len := writeLen buffer
  let copy := copyFromUser fate buffer len fb.value
  if copy.2 ≠ 0 then
    ({ fb with value := copy.1, value_length := by rw [length_copyFromUser, fb.value_length] },
      negEfault)
  else
    ({ fb with
        value := copy.1.set len 0
        value_length := by rw [List.length_set, length_copyFromUser, fb.value_length] },
      len)

/-! ## The module -/

inductive File where
  | foo
  | bar
  deriving DecidableEq, Repr

/-- What the module puts under `/proc`. -/
inductive Entry where
  | proctest
  | jiffies
  | file (f : File)
  | jiffiesToo
  deriving DecidableEq, Repr

/-- The directory entries, `foo_data` and `bar_data`. -/
structure Proctest where
  entries : Finset Entry
  foo : FbData
  bar : FbData

def Proctest.data (s : Proctest) : File → FbData
  | .foo => s.foo
  | .bar => s.bar

def Proctest.setData (s : Proctest) (fb : FbData) : File → Proctest
  | .foo => { s with foo := fb }
  | .bar => { s with bar := fb }

def Proctest.create (s : Proctest) (e : Entry) : Proctest := { s with entries := insert e s.entries }

def Proctest.remove (s : Proctest) (e : Entry) : Proctest := { s with entries := s.entries.erase e }

/-- `"foo"` and `"bar"`, which are also the first values. -/
def File.name : File → List Byte
  | .foo => text "foo"
  | .bar => text "bar"

/-- `strcpy(dst, s)` -/
def strcpy (s dst : List Byte) : List Byte := overwrite 0 (s ++ [0]) dst

theorem length_strcpy {s dst : List Byte} (hs : s.length ≤ foobarLen)
    (hdst : dst.length = foobarLen + 1) : (strcpy s dst).length = foobarLen + 1 := by
  rw [strcpy, length_overwrite, hdst]
  rw [List.length_append, List.length_singleton, hdst, Nat.zero_add]
  exact Nat.succ_le_succ hs

/-- `strcpy(fb.name, s)` and `strcpy(fb.value, s)` -/
def FbData.strcpyBoth (fb : FbData) (s : List Byte) (hs : s.length ≤ foobarLen) : FbData where
  name := strcpy s fb.name
  value := strcpy s fb.value
  name_length := length_strcpy hs fb.name_length
  value_length := length_strcpy hs fb.value_length

theorem File.length_name_le (f : File) : f.name.length ≤ foobarLen := by
  cases f <;> decide

/-- The assignments to `foo_data` or `bar_data` once its entry is there. -/
def Proctest.setUp (s : Proctest) (f : File) : Proctest :=
  (s.create (.file f)).setData ((s.data f).strcpyBoth f.name f.length_name_le) f

/-- Which of the calls that create an entry succeed. -/
structure Created where
  mkdir : Bool
  jiffies : Bool
  foo : Bool
  bar : Bool
  symlink : Bool

/-- The labels of `proctest_init`, each falling through to the next. -/
def Proctest.noJiffies (s : Proctest) : Proctest := s.remove .proctest

def Proctest.noFoo (s : Proctest) : Proctest := (s.remove .jiffies).noJiffies

def Proctest.noBar (s : Proctest) : Proctest := (s.remove (.file .foo)).noFoo

def Proctest.noSymlink (s : Proctest) : Proctest := (s.remove (.file .bar)).noBar

def proctestInit (o : Created) (s : Proctest) : Proctest × Int :=
  if !o.mkdir then (s, negEnomem)
  else
    let s := s.create .proctest
    if !o.jiffies then (s.noJiffies, negEnomem)
    else
      let s := s.create .jiffies
      if !o.foo then (s.noFoo, negEnomem)
      else
        let s := s.setUp .foo
        if !o.bar then (s.noBar, negEnomem)
        else
          let s := s.setUp .bar
          if !o.symlink then (s.noSymlink, negEnomem)
          else (s.create .jiffiesToo, 0)

def proctestExit (s : Proctest) : Proctest :=
  ((((s.remove .jiffiesToo).remove (.file .bar)).remove (.file .foo)).remove .jiffies).remove
    .proctest

/-- Static storage. -/
def FbData.zero : FbData where
  name := List.replicate (foobarLen + 1) 0
  value := List.replicate (foobarLen + 1) 0
  name_length := List.length_replicate
  value_length := List.length_replicate

/-- The module before `proctest_init`. -/
def unloaded : Proctest := { entries := ∅, foo := .zero, bar := .zero }

/-- A `write` on one of the files, and what `copy_from_user` does. -/
structure WriteCall where
  file : File
  buffer : List Byte
  fate : Nat → Fate

def Proctest.write (s : Proctest) (w : WriteCall) : Proctest × Int :=
  let r := procWriteFoobar w.fate w.buffer (s.data w.file)
  (s.setData r.1 w.file, r.2)

def Proctest.read (s : Proctest) (f : File) : Option (List Byte × Int) := procReadFoobar (s.data f)

/-! ## proctest_init -/

/-- `proctest_init` creates everything or leaves nothing, and on success each
    file holds its own name. -/
theorem proctestInit_ends (o : Created) :
    ((proctestInit o unloaded).2 = 0 ∧
      (∀ e, e ∈ (proctestInit o unloaded).1.entries) ∧
      ∀ f, (proctestInit o unloaded).1.data f = FbData.zero.strcpyBoth f.name f.length_name_le) ∨
    ((proctestInit o unloaded).2 = negEnomem ∧ (proctestInit o unloaded).1.entries = ∅) := by
  obtain ⟨mkdir, jiffies, foo, bar, symlink⟩ := o
  cases mkdir with
  | false => exact Or.inr ⟨rfl, rfl⟩
  | true =>
  cases jiffies with
  | false => exact Or.inr ⟨rfl, rfl⟩
  | true =>
  cases foo with
  | false => exact Or.inr ⟨rfl, rfl⟩
  | true =>
  cases bar with
  | false => exact Or.inr ⟨rfl, rfl⟩
  | true =>
  cases symlink with
  | false => exact Or.inr ⟨rfl, rfl⟩
  | true =>
      refine Or.inl ⟨rfl, fun e => ?_, fun f => ?_⟩
      · rcases e with _ | _ | ⟨_ | _⟩ | _ <;> decide
      · cases f <;> rfl

/-- `proctest_exit` leaves no entry. -/
theorem entries_proctestExit (s : Proctest) : (proctestExit s).entries = ∅ := by
  rw [Finset.eq_empty_iff_forall_notMem]
  intro e he
  simp only [proctestExit, Proctest.remove, Finset.mem_erase] at he
  obtain ⟨hdir, hjiffies, hfoo, hbar, htoo, -⟩ := he
  cases e with
  | proctest => exact hdir rfl
  | jiffies => exact hjiffies rfl
  | jiffiesToo => exact htoo rfl
  | file f =>
      cases f with
      | foo => exact hfoo rfl
      | bar => exact hbar rfl

/-! ## One write -/

theorem writeLen_eq (buffer : List Byte) : writeLen buffer = min buffer.length foobarLen := by
  unfold writeLen
  split <;> omega

theorem length_take_writeLen (buffer : List Byte) :
    (buffer.take (writeLen buffer)).length = writeLen buffer := by
  have hlen := writeLen_eq buffer
  rw [List.length_take]
  omega

theorem copyFromUser_eq_zero_iff (fate : Nat → Fate) (src : List Byte) (n : Nat)
    (dst : List Byte) : (copyFromUser fate src n dst).2 = 0 ↔ ∀ i < n, fate i = .copied := by
  simp only [copyFromUser, List.countP_eq_zero, List.mem_range, decide_eq_true_eq, not_not]

theorem getElem?_copyFromUser (fate : Nat → Fate) (src : List Byte) (n : Nat) (dst : List Byte)
    (i : Nat) : (copyFromUser fate src n dst).1[i]? =
      dst[i]?.map fun old => if i < n then (fate i).land (src.getD i 0) old else old :=
  List.getElem?_mapIdx

/-- A copy that succeeds. -/
theorem copyFromUser_of_copied {fate : Nat → Fate} {src dst : List Byte} {n : Nat}
    (hfate : ∀ i < n, fate i = .copied) (hsrc : n ≤ src.length) (hdst : n ≤ dst.length) :
    (copyFromUser fate src n dst).1 = src.take n ++ dst.drop n := by
  have hlen : (src.take n).length = n := by rw [List.length_take, Nat.min_eq_left hsrc]
  apply List.ext_getElem?
  intro i
  rw [getElem?_copyFromUser]
  by_cases hi : i < n
  · have hin : dst[i]? = some dst[i] := List.getElem?_eq_getElem (by omega)
    rw [List.getElem?_append_left (by omega), List.getElem?_take_of_lt hi, hin, Option.map_some,
      if_pos hi, hfate i hi, Fate.land, List.getD_eq_getElem?_getD,
      List.getElem?_eq_getElem (by omega), Option.getD_some]
  · have hback : n + (i - n) = i := by omega
    simp only [if_neg hi, Option.map_id']
    rw [List.getElem?_append_right (by omega), hlen, List.getElem?_drop, hback]

/-- The two ways a write ends. -/
inductive Wrote (fate : Nat → Fate) (buffer : List Byte) (fb : FbData) : FbData × Int → Prop
  | fault (hfate : ¬ ∀ i < writeLen buffer, fate i = .copied) {fb' : FbData}
      (hname : fb'.name = fb.name)
      (hvalue : fb'.value = (copyFromUser fate buffer (writeLen buffer) fb.value).1) :
      Wrote fate buffer fb (fb', negEfault)
  | ok (hfate : ∀ i < writeLen buffer, fate i = .copied) {fb' : FbData}
      (hname : fb'.name = fb.name)
      (hvalue : fb'.value =
        buffer.take (writeLen buffer) ++ 0 :: fb.value.drop (writeLen buffer + 1)) :
      Wrote fate buffer fb (fb', writeLen buffer)

theorem procWriteFoobar_ends (fate : Nat → Fate) (buffer : List Byte) (fb : FbData) :
    Wrote fate buffer fb (procWriteFoobar fate buffer fb) := by
  have hlen := writeLen_eq buffer
  have hvlen := fb.value_length
  have hzero := copyFromUser_eq_zero_iff fate buffer (writeLen buffer) fb.value
  unfold procWriteFoobar
  simp only
  split
  case isTrue hleft =>
    exact .fault (fun h => hleft (hzero.mpr h)) rfl rfl
  case isFalse hleft =>
    have hfate := hzero.mp (not_not.mp hleft)
    refine .ok hfate rfl ?_
    have htake := length_take_writeLen buffer
    show (copyFromUser fate buffer (writeLen buffer) fb.value).1.set (writeLen buffer) 0 = _
    rw [copyFromUser_of_copied hfate (by omega) (by omega),
      List.set_append_right _ _ (by omega), htake, Nat.sub_self,
      List.drop_eq_getElem_cons (by omega), List.set_cons_zero]

theorem name_procWriteFoobar (fate : Nat → Fate) (buffer : List Byte) (fb : FbData) :
    (procWriteFoobar fate buffer fb).1.name = fb.name := by
  have hends := procWriteFoobar_ends fate buffer fb
  generalize procWriteFoobar fate buffer fb = r at hends
  cases hends with
  | fault _ hname _ => exact hname
  | ok _ hname _ => exact hname

/-! ## The last byte -/

/-- The last byte of the value is a NUL. -/
def FbData.Closed (fb : FbData) : Prop := fb.value[foobarLen]? = some 0

theorem FbData.Closed.zero_mem {fb : FbData} (h : fb.Closed) : 0 ∈ fb.value :=
  List.mem_of_getElem? h

theorem FbData.closed_strcpyBoth (f : File) :
    (FbData.zero.strcpyBoth f.name f.length_name_le).Closed := by
  cases f <;> rfl

/-- No write reaches the last byte, except to terminate the value there. -/
theorem closed_procWriteFoobar (fate : Nat → Fate) (buffer : List Byte) {fb : FbData}
    (h : fb.Closed) : (procWriteFoobar fate buffer fb).1.Closed := by
  have hlen := writeLen_eq buffer
  have hends := procWriteFoobar_ends fate buffer fb
  generalize procWriteFoobar fate buffer fb = r at hends
  cases hends with
  | fault _ _ hvalue =>
      have hlast : ¬ foobarLen < writeLen buffer := by omega
      rw [FbData.Closed, hvalue, getElem?_copyFromUser, h, Option.map_some, if_neg hlast]
  | ok _ _ hvalue =>
      have htake := length_take_writeLen buffer
      rw [FbData.Closed, hvalue, List.getElem?_append_right (by omega), htake]
      rcases Nat.eq_or_lt_of_le (show writeLen buffer ≤ foobarLen by omega) with heq | hlt
      · rw [heq, Nat.sub_self]
        rfl
      · obtain ⟨k, hk⟩ : ∃ k, foobarLen = writeLen buffer + 1 + k := ⟨foobarLen - writeLen buffer - 1,
          by omega⟩
        have hidx : foobarLen - writeLen buffer = k + 1 := by omega
        rw [hidx, List.getElem?_cons_succ, List.getElem?_drop, ← hk]
        exact h

/-! ## Runs -/

theorem Proctest.data_setData (s : Proctest) (fb : FbData) (f g : File) :
    (s.setData fb f).data g = if g = f then fb else s.data g := by
  cases f <;> cases g <;> rfl

theorem data_write_self (s : Proctest) (w : WriteCall) :
    (s.write w).1.data w.file = (procWriteFoobar w.fate w.buffer (s.data w.file)).1 := by
  rw [Proctest.write, Proctest.data_setData, if_pos rfl]

/-- A write to one file leaves the other alone. -/
theorem data_write_of_ne {s : Proctest} {w : WriteCall} {f : File} (hf : f ≠ w.file) :
    (s.write w).1.data f = s.data f := by
  rw [Proctest.write, Proctest.data_setData, if_neg hf]

theorem read_write_of_ne {s : Proctest} {w : WriteCall} {f : File} (hf : f ≠ w.file) :
    (s.write w).1.read f = s.read f := by
  rw [Proctest.read, data_write_of_ne hf, Proctest.read]

/-- Writes to other files, any number of them. -/
theorem data_final_of_ne {f : File} {ws : List WriteCall} (hws : ∀ w ∈ ws, f ≠ w.file)
    (s : Proctest) : (final Proctest.write s ws).data f = s.data f := by
  induction ws generalizing s with
  | nil => rfl
  | cons w ws ih =>
      have hrest := ih (fun v hv => hws v (List.mem_cons_of_mem _ hv)) (s.write w).1
      exact hrest.trans (data_write_of_ne (hws w (List.mem_cons_self ..)))

/-- Each file has its own name, and a closed value. -/
def Proctest.Intact (s : Proctest) : Prop :=
  ∀ f, cstr? (s.data f).name = some f.name ∧ (s.data f).Closed

theorem intact_proctestInit {o : Created} {s₀ : Proctest}
    (h : proctestInit o unloaded = (s₀, 0)) : s₀.Intact := by
  rcases proctestInit_ends o with ⟨-, -, hdata⟩ | ⟨hret, -⟩
  · intro f
    rw [h] at hdata
    rw [hdata f]
    refine ⟨?_, FbData.closed_strcpyBoth f⟩
    cases f <;> rfl
  · rw [h] at hret
    cases hret

theorem intact_write {s : Proctest} (w : WriteCall) (hs : s.Intact) : (s.write w).1.Intact := by
  intro f
  by_cases hf : f = w.file
  · subst hf
    obtain ⟨hname, hclosed⟩ := hs w.file
    rw [data_write_self, name_procWriteFoobar]
    exact ⟨hname, closed_procWriteFoobar w.fate w.buffer hclosed⟩
  · rw [data_write_of_ne hf]
    exact hs f

theorem intact_final {s : Proctest} (hs : s.Intact) (ws : List WriteCall) :
    (final Proctest.write s ws).Intact :=
  run_invariant (fun _ w h => intact_write w h) hs ws

/-- What a file with its name and a closed value reads. -/
theorem read_of_intact {s : Proctest} (hs : s.Intact) (f : File) :
    s.read f = some (sprintfPage f.name (cstrOf (s.data f).value)) := by
  obtain ⟨hname, hclosed⟩ := hs f
  have hvalue : cstr? (s.data f).value = some (cstrOf (s.data f).value) :=
    if_pos hclosed.zero_mem
  simp only [Proctest.read, procReadFoobar, hname, hvalue]
  rfl

/-- A write that does not fault stores the first bytes of its data. -/
theorem write_ok {s : Proctest} {w : WriteCall} (hret : (s.write w).2 ≠ negEfault) :
    (s.write w).2 = (min w.buffer.length foobarLen : Nat) ∧
      cstrOf ((s.write w).1.data w.file).value =
        cstrOf (w.buffer.take (min w.buffer.length foobarLen)) := by
  have hends := procWriteFoobar_ends w.fate w.buffer (s.data w.file)
  rw [data_write_self]
  unfold Proctest.write at hret ⊢
  simp only at hret ⊢
  generalize procWriteFoobar w.fate w.buffer (s.data w.file) = r at hends hret
  cases hends with
  | fault _ _ _ => exact absurd rfl hret
  | ok _ _ hvalue => rw [hvalue, cstrOf_append_zero, writeLen_eq]; exact ⟨rfl, rfl⟩

/-- After `proctest_init` and any writes, with faults anywhere: both values have a
    NUL, both files read as name and value, the value is what the last write to
    the file stored if that did not fault, and a further write to one file does
    not change the other. -/
theorem foobar_reads {o : Created} {s₀ : Proctest} (h₀ : proctestInit o unloaded = (s₀, 0))
    (ws : List WriteCall) :
    (∀ f, 0 ∈ ((final Proctest.write s₀ ws).data f).value ∧
      (final Proctest.write s₀ ws).read f =
        some (sprintfPage f.name (cstrOf ((final Proctest.write s₀ ws).data f).value))) ∧
    (∀ before w after, ws = before ++ w :: after → (∀ v ∈ after, w.file ≠ v.file) →
      ((final Proctest.write s₀ before).write w).2 ≠ negEfault →
        ((final Proctest.write s₀ before).write w).2 = (min w.buffer.length 8 : Nat) ∧
          cstrOf ((final Proctest.write s₀ ws).data w.file).value =
            cstrOf (w.buffer.take (min w.buffer.length 8))) ∧
    ∀ w f, f ≠ w.file →
      ((final Proctest.write s₀ ws).write w).1.read f = (final Proctest.write s₀ ws).read f := by
  have hintact := intact_final (intact_proctestInit h₀) ws
  refine ⟨fun f => ⟨(hintact f).2.zero_mem, read_of_intact hintact f⟩, ?_,
    fun w f hf => read_write_of_ne hf⟩
  rintro before w after rfl hafter hret
  obtain ⟨hlen, hvalue⟩ := write_ok hret
  refine ⟨hlen, ?_⟩
  rw [final_append]
  exact (congrArg (fun fb => cstrOf fb.value) (data_final_of_ne hafter _)).trans hvalue

def allCreated : Created := ⟨true, true, true, true, true⟩

/-- The module after a successful `proctest_init`. -/
def loaded : Proctest := (proctestInit allCreated unloaded).1

/-- Nothing faults. -/
def copyAll : Nat → Fate := fun _ => .copied

/-- A fault after `k` bytes, the rest left alone. -/
def copyFirst (k : Nat) : Nat → Fate := fun i => if i < k then .copied else .left

/-- A long value, a write to the other file, and a write that faults after two
    bytes. -/
def threeWrites : List WriteCall :=
  [⟨.foo, text "a long value", copyAll⟩, ⟨.bar, text "x", copyAll⟩, ⟨.bar, text "yes", copyFirst 2⟩]

theorem foobar_reads_three_writes :
    proctestInit allCreated unloaded = (loaded, 0) ∧
    cstrOf ((final Proctest.write loaded threeWrites).data .foo).value = text "a long v" := by
  refine ⟨rfl, ?_⟩
  have hreads := (foobar_reads (o := allCreated) rfl threeWrites).2.1 []
    ⟨.foo, text "a long value", copyAll⟩ _ rfl (by decide) (by decide)
  exact hreads.2

/-! ## Failed writes -/

/-- Up to its NUL the old string keeps its bytes: those that were copied over are
    the same, and none of its characters is zeroed. -/
def WriteCall.Spares (w : WriteCall) (value : List Byte) : Prop :=
  ∀ i < writeLen w.buffer, i ≤ (cstrOf value).length →
    (w.fate i = .copied → w.buffer[i]? = value[i]?) ∧
      (w.fate i = .zeroed → i = (cstrOf value).length)

/-- One byte up to the NUL. -/
theorem getElem?_copyFromUser_eq_iff (w : WriteCall) {value : List Byte} (hnul : 0 ∈ value) {i : Nat}
    (hi : i < writeLen w.buffer) (hstr : i ≤ (cstrOf value).length) :
    (copyFromUser w.fate w.buffer (writeLen w.buffer) value).1[i]? = value[i]? ↔
      (w.fate i = .copied → w.buffer[i]? = value[i]?) ∧
        (w.fate i = .zeroed → i = (cstrOf value).length) := by
  have hlen := writeLen_eq w.buffer
  have hnulLt : (cstrOf value).length < value.length := (length_cstrOf_lt_iff value).mpr hnul
  have hbuf : w.buffer[i]? = some (w.buffer.getD i 0) := by
    rw [List.getD_eq_getElem?_getD, List.getElem?_eq_getElem (by omega), Option.getD_some]
  obtain ⟨old, hold⟩ : ∃ old, value[i]? = some old := ⟨_, List.getElem?_eq_getElem (by omega)⟩
  have hzero := getElem?_eq_zero_iff hnul hstr
  rw [getElem?_copyFromUser, hold, Option.map_some, if_pos hi, hbuf]
  rw [hold] at hzero
  cases w.fate i with
  | copied => simp [Fate.land]
  | left => simp [Fate.land]
  | zeroed => exact eq_comm.trans (hzero.trans (by simp))

/-- The copied-over value holds the old string exactly if the copy spared it. -/
theorem cstrOf_copyFromUser_iff (w : WriteCall) {value : List Byte} (hnul : 0 ∈ value)
    (hnul' : 0 ∈ (copyFromUser w.fate w.buffer (writeLen w.buffer) value).1) :
    cstrOf (copyFromUser w.fate w.buffer (writeLen w.buffer) value).1 = cstrOf value ↔
      w.Spares value := by
  rw [cstrOf_eq_iff hnul hnul']
  constructor
  · exact fun h i hi hstr => (getElem?_copyFromUser_eq_iff w hnul hi hstr).mp (h i hstr)
  · intro h i hstr
    by_cases hi : i < writeLen w.buffer
    · exact (getElem?_copyFromUser_eq_iff w hnul hi hstr).mpr (h i hi hstr)
    · -- the copy does not reach this byte
      rw [getElem?_copyFromUser]
      simp only [if_neg hi, Option.map_id']

theorem sprintfPage_inj (name : List Byte) {value value' : List Byte} :
    sprintfPage name value = sprintfPage name value' ↔ value = value' := by
  constructor
  · intro h
    have hpage := congrArg Prod.fst h
    simpa [sprintfPage] using hpage
  · rintro rfl
    rfl

/-- In a reachable state, for any write and any fault: a write that returns
    `-EFAULT` changes no read exactly if nothing faulted or the copy spared the
    string that was there. -/
theorem failed_write_inert_iff {o : Created} {s₀ : Proctest}
    (h₀ : proctestInit o unloaded = (s₀, 0)) (ws : List WriteCall) (w : WriteCall) :
    (((final Proctest.write s₀ ws).write w).2 = negEfault →
      ∀ f, ((final Proctest.write s₀ ws).write w).1.read f = (final Proctest.write s₀ ws).read f) ↔
    ((∀ i < writeLen w.buffer, w.fate i = .copied) ∨
      w.Spares ((final Proctest.write s₀ ws).data w.file).value) := by
  have hintact := intact_final (intact_proctestInit h₀) ws
  generalize final Proctest.write s₀ ws = s at hintact
  have hintact' := intact_write w hintact
  have hread := read_of_intact hintact' w.file
  have hclosed := (hintact' w.file).2
  have hends := procWriteFoobar_ends w.fate w.buffer (s.data w.file)
  have hret : (s.write w).2 = (procWriteFoobar w.fate w.buffer (s.data w.file)).2 := rfl
  rw [data_write_self] at hread hclosed
  rw [hret]
  generalize procWriteFoobar w.fate w.buffer (s.data w.file) = r at hends hread hclosed
  cases hends with
  | ok hfate _ _ =>
      -- lengths are not negative
      refine iff_of_true (fun h => ?_) (Or.inl hfate)
      have hneg : ((writeLen w.buffer : Nat) : Int) = -14 := h
      omega
  | fault hfate _ hvalue =>
      have hnul := hclosed.zero_mem
      simp only at hread
      rw [hvalue] at hread hnul
      rw [or_iff_right hfate, ← cstrOf_copyFromUser_iff w (hintact w.file).2.zero_mem hnul]
      constructor
      · intro h
        have hsame := h rfl w.file
        rw [hread, read_of_intact hintact, Option.some.injEq, sprintfPage_inj] at hsame
        exact hsame
      · intro h _ f
        by_cases hf : f = w.file
        · rw [hf, hread, read_of_intact hintact, h]
        · exact read_write_of_ne hf

/-- A copy of `"fork"` to `foo` that faults after two bytes. -/
def sparingWrite : WriteCall := ⟨.foo, text "fork", copyFirst 2⟩

theorem failed_write_inert_same_prefix :
    proctestInit allCreated unloaded = (loaded, 0) ∧
    (loaded.write sparingWrite).2 = negEfault ∧
    ∀ f, (loaded.write sparingWrite).1.read f = loaded.read f := by
  have hspares : sparingWrite.Spares (loaded.data sparingWrite.file).value := by
    unfold WriteCall.Spares
    decide
  refine ⟨rfl, by decide, ?_⟩
  exact (failed_write_inert_iff (o := allCreated) rfl [] sparingWrite).mpr
    (Or.inr hspares) (by decide)

/-- A copy of `"bye"` to `foo` that faults after the first byte, right after the
    module is loaded. -/
def faultingWrite : WriteCall := ⟨.foo, text "bye", copyFirst 1⟩

/-- `foo` then reads `boo`. -/
theorem failed_write_not_inert :
    (loaded.write faultingWrite).2 = negEfault ∧
    (loaded.write faultingWrite).1.read .foo ≠ loaded.read .foo := by
  constructor
  · decide
  · decide

end LinuxModules.Proc
