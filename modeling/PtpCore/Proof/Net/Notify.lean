import PtpCore.Net.Notify
import PtpCore.Lib.Run

/-!
# Who has a buffer (`ptp_net/AccountManager.cpp`, `ptp_net/BuffersStorage.cpp`)

A buffer is in a free list, or somebody has it, or a delegate reads it. `onNotify` gives the buffer
back before the delegate is called, so the buffer is free while the delegate reads it. The lists and
the readers stay apart exactly as long as this does not happen: there is no delegate, or the storage
does not keep the buffer.
-/

namespace PtpCore
namespace Proof
namespace Net

open PtpCore.Net PtpCore.Lib

namespace Notify

theorem ofCapacity_eq_some {n : Nat} {c : SizeClass} (h : SizeClass.ofCapacity n = some c) :
    n = c.byteCount := by
  unfold SizeClass.ofCapacity at h
  repeat' split at h
  all_goals cases h
  all_goals assumption

theorem ofCapacity_byteCount (c : SizeClass) : SizeClass.ofCapacity c.byteCount = some c := by
  cases c <;> rfl

section

variable {s : Notifications} {b addr : BufferRef} {c : SizeClass} {size : UInt32} {o : BufferObject}

/-! ### One operation -/

@[simp] theorem setFree_self {list : List BufferRef} : (s.setFree c list).freeBuffers c = list :=
  if_pos rfl

theorem setFree_of_ne {list : List BufferRef} {c' : SizeClass} (h : c' ≠ c) :
    (s.setFree c list).freeBuffers c' = s.freeBuffers c' := if_neg h

theorem mem_release {b' : BufferRef} : b' ∈ (s.release b).held ↔ b' ∈ s.held ∧ b' ≠ b := by
  simp [Notifications.release]

/-- `getFreeBuffer` finds no buffer. -/
def MakesNew (s : Notifications) (size : UInt32) : Prop :=
  ∀ c, SizeClass.ofSize size.toNat = some c → s.freeBuffers c = []

theorem getFreeBuffer_cases (s : Notifications) (size : UInt32) (addr : BufferRef) :
    (∃ c buffer rest, s.freeBuffers c = buffer :: rest ∧ ¬ MakesNew s size ∧
      s.getFreeBuffer size addr = (buffer, { s.setFree c rest with held := buffer :: s.held })) ∨
    (MakesNew s size ∧ ∃ capacity,
      s.getFreeBuffer size addr = (addr, s.create addr { capacity := capacity })) := by
  unfold Notifications.getFreeBuffer
  split
  next hnone =>
    refine .inr ⟨?_, size.toNat, rfl⟩
    intro c hc
    rw [hnone] at hc
    cases hc
  next c hc =>
    split
    next buffer rest hlist =>
      refine .inl ⟨c, buffer, rest, hlist, ?_, rfl⟩
      intro hnew
      rw [hnew c hc] at hlist
      cases hlist
    next hlist =>
      refine .inr ⟨?_, c.byteCount, rfl⟩
      intro c' hc'
      rw [hc] at hc'
      cases hc'
      exact hlist

/-- `reuse` puts the buffer into a list. -/
def Listed (s : Notifications) (b : BufferRef) : Prop :=
  ∃ o c, s.buffers.find b = some o ∧ o.sliced = false ∧
    SizeClass.ofCapacity o.capacity = some c ∧ (s.freeBuffers c).length < c.maxCount

theorem reuse_cases (hb : s.buffers.find b = some o) :
    (o.sliced = true ∧ ¬ Listed s b ∧ s.reuse b = s) ∨
    (o.sliced = false ∧ ¬ Listed s b ∧ s.reuse b = s.delete b) ∨
    (Listed s b ∧ ∃ c, o = { capacity := c.byteCount } ∧
      s.reuse b = (s.release b).setFree c (s.freeBuffers c ++ [b])) := by
  have hlisted : Listed s b ↔ o.sliced = false ∧ ∃ c, SizeClass.ofCapacity o.capacity = some c ∧
      (s.freeBuffers c).length < c.maxCount := by
    simp [Listed, hb]
  rw [Notifications.reuse, hb, hlisted]
  rcases o with ⟨capacity, _ | _⟩
  · refine .inr ?_
    simp only [true_and, Bool.false_eq_true, if_false, Notifications.reuseFreeBuffer]
    cases hc : SizeClass.ofCapacity capacity with
    | none => exact .inl ⟨by simp, rfl⟩
    | some c =>
      cases ofCapacity_eq_some hc
      by_cases hlt : (s.freeBuffers c).length < c.maxCount
      · exact .inr ⟨⟨c, rfl, hlt⟩, c, rfl, if_pos hlt⟩
      · refine .inl ⟨?_, if_neg hlt⟩
        rintro ⟨c', hc', hlt'⟩
        cases hc'
        exact hlt hlt'
  · exact .inl ⟨rfl, by simp, rfl⟩

/-! ### The invariant -/

/-- A free buffer is in one list, and nobody else has it. -/
structure Apart (s : Notifications) : Prop where
  nodup : ∀ c, (s.freeBuffers c).Nodup
  free : ∀ c, ∀ b ∈ s.freeBuffers c,
    s.buffers.find b = some { capacity := c.byteCount } ∧ b ∉ s.held ∧ b ∉ s.handling
  held : ∀ b ∈ s.held, ∃ o, s.buffers.find b = some o ∧ (o.sliced = false → b ∉ s.handling)

namespace Apart

theorem not_free (h : Apart s) (hb : b ∈ s.held) (c : SizeClass) : b ∉ s.freeBuffers c :=
  fun hfree => (h.free c b hfree).2.1 hb

/-- The lists are told apart by the capacity of their buffers. -/
theorem same_list (h : Apart s) {c' : SizeClass} (hb : b ∈ s.freeBuffers c)
    (hb' : b ∈ s.freeBuffers c') : c' = c := by
  have heq := (h.free c b hb).1.symm.trans (h.free c' b hb').1
  have hcount : c.byteCount = c'.byteCount := congrArg BufferObject.capacity (Option.some.inj heq)
  have hclass := ofCapacity_byteCount c
  rw [hcount, ofCapacity_byteCount] at hclass
  exact Option.some.inj hclass

theorem take (h : Apart s) {rest : List BufferRef} (hlist : s.freeBuffers c = b :: rest) :
    Apart { s.setFree c rest with held := b :: s.held } := by
  have hb : b ∈ s.freeBuffers c := by simp [hlist]
  have hnodup := h.nodup c
  rw [hlist, List.nodup_cons] at hnodup
  -- What is in a list afterwards was in it before, and is another buffer.
  have hfree : ∀ c' b', b' ∈ (s.setFree c rest).freeBuffers c' →
      b' ∈ s.freeBuffers c' ∧ b' ≠ b := by
    intro c' b' hb'
    by_cases hc : c' = c
    · subst hc
      rw [setFree_self] at hb'
      refine ⟨by simp [hlist, hb'], ?_⟩
      rintro rfl
      exact hnodup.1 hb'
    · rw [setFree_of_ne hc] at hb'
      refine ⟨hb', ?_⟩
      rintro rfl
      exact hc (h.same_list hb hb')
  refine ⟨?_, ?_, ?_⟩
  · intro c'
    by_cases hc : c' = c
    · subst hc
      rw [setFree_self]
      exact hnodup.2
    · rw [setFree_of_ne hc]
      exact h.nodup c'
  · intro c' b' hb'
    obtain ⟨hmem, hne⟩ := hfree c' b' hb'
    obtain ⟨hfind, hheld, hhandling⟩ := h.free c' b' hmem
    exact ⟨hfind, by simp [hne, hheld], hhandling⟩
  · intro b' hb'
    rcases List.mem_cons.mp hb' with rfl | hb'
    · exact ⟨_, (h.free c b' hb).1, fun _ => (h.free c b' hb).2.2⟩
    · exact h.held b' hb'

theorem create (h : Apart s) (hnone : s.buffers.find addr = none)
    (hsafe : o.sliced = false → addr ∉ s.handling) : Apart (s.create addr o) := by
  have hother : ∀ b o', s.buffers.find b = some o' → b ≠ addr := by
    rintro b o' hb rfl
    rw [hnone] at hb
    cases hb
  refine ⟨h.nodup, ?_, ?_⟩
  · intro c b hb
    obtain ⟨hfind, hheld, hhandling⟩ := h.free c b hb
    have hne := hother b _ hfind
    exact ⟨(Assoc.find_set_of_ne _ _ hne).trans hfind, by simp [Notifications.create, hne, hheld],
      hhandling⟩
  · intro b hb
    rcases List.mem_cons.mp hb with rfl | hb
    · exact ⟨o, Assoc.find_set_self _ _ _, hsafe⟩
    · obtain ⟨o', hfind, hhandling⟩ := h.held b hb
      exact ⟨o', (Assoc.find_set_of_ne _ _ (hother b _ hfind)).trans hfind, hhandling⟩

theorem delete (h : Apart s) (hb : b ∈ s.held) : Apart (s.delete b) := by
  refine ⟨h.nodup, ?_, ?_⟩
  · intro c b' hb'
    have hne : b' ≠ b := by
      rintro rfl
      exact h.not_free hb c hb'
    obtain ⟨hfind, hheld, hhandling⟩ := h.free c b' hb'
    exact ⟨(Assoc.find_erase_of_ne _ hne).trans hfind, fun hmem => hheld (mem_release.mp hmem).1,
      hhandling⟩
  · intro b' hb'
    obtain ⟨hmem, hne⟩ := mem_release.mp hb'
    obtain ⟨o, hfind, hhandling⟩ := h.held b' hmem
    exact ⟨o, (Assoc.find_erase_of_ne _ hne).trans hfind, hhandling⟩

theorem giveBack (h : Apart s) (hb : b ∈ s.held)
    (hfind : s.buffers.find b = some { capacity := c.byteCount }) :
    Apart ((s.release b).setFree c (s.freeBuffers c ++ [b])) := by
  have hb' : b ∉ s.handling := by
    obtain ⟨o, ho, hsafe⟩ := h.held b hb
    rw [hfind] at ho
    cases ho
    exact hsafe rfl
  refine ⟨?_, ?_, ?_⟩
  · intro c'
    by_cases hc : c' = c
    · subst hc
      rw [setFree_self, List.nodup_append]
      refine ⟨h.nodup c', by simp, ?_⟩
      rintro a ha b' hb' rfl
      rw [List.mem_singleton] at hb'
      exact h.not_free hb c' (hb' ▸ ha)
    · rw [setFree_of_ne hc]
      exact h.nodup c'
  · have hold : ∀ c' b', b' ∈ s.freeBuffers c' →
        s.buffers.find b' = some { capacity := c'.byteCount } ∧ b' ∉ (s.release b).held ∧
          b' ∉ s.handling := by
      intro c' b' hmem
      obtain ⟨hf, hheld, hhandling⟩ := h.free c' b' hmem
      exact ⟨hf, fun hm => hheld (mem_release.mp hm).1, hhandling⟩
    intro c' b' hmem
    by_cases hc : c' = c
    · subst hc
      rw [setFree_self] at hmem
      rcases List.mem_append.mp hmem with hmem | hmem
      · exact hold c' b' hmem
      · cases List.mem_singleton.mp hmem
        exact ⟨hfind, fun hm => (mem_release.mp hm).2 rfl, hb'⟩
    · rw [setFree_of_ne hc] at hmem
      exact hold c' b' hmem
  · intro b' hmem
    exact h.held b' (mem_release.mp hmem).1

/-- Somebody who has a buffer gives it back. -/
theorem reuse (h : Apart s) (hb : b ∈ s.held) : Apart (s.reuse b) := by
  obtain ⟨o, ho, -⟩ := h.held b hb
  rcases reuse_cases ho with ⟨-, -, heq⟩ | ⟨-, -, heq⟩ | ⟨-, c, rfl, heq⟩
  · rw [heq]
    exact h
  · rw [heq]
    exact h.delete hb
  · rw [heq]
    exact h.giveBack hb ho

/-- A delegate starts to read a buffer that the storage has not kept. -/
theorem read (h : Apart s) (hb : b ∈ s.held) (hlisted : ¬ Listed s b) :
    Apart { s.reuse b with handling := b :: (s.reuse b).handling } := by
  have hreuse := h.reuse hb
  obtain ⟨o, ho, hsafe⟩ := h.held b hb
  have hout : (∀ c, b ∉ (s.reuse b).freeBuffers c) ∧
      ∀ o', (s.reuse b).buffers.find b = some o' → b ∈ (s.reuse b).held → o'.sliced = true := by
    rcases reuse_cases ho with ⟨hsliced, -, heq⟩ | ⟨-, -, heq⟩ | ⟨hl, -⟩
    · rw [heq]
      refine ⟨h.not_free hb, ?_⟩
      intro o' ho' _
      rw [ho] at ho'
      cases ho'
      exact hsliced
    · rw [heq]
      refine ⟨h.not_free hb, ?_⟩
      intro o' _ hmem
      exact absurd rfl (mem_release.mp hmem).2
    · exact absurd hl hlisted
  refine ⟨hreuse.nodup, ?_, ?_⟩
  · intro c b' hmem
    obtain ⟨hfind, hheld, hhandling⟩ := hreuse.free c b' hmem
    refine ⟨hfind, hheld, ?_⟩
    rw [List.mem_cons]
    rintro (rfl | hm)
    · exact hout.1 c hmem
    · exact hhandling hm
  · intro b' hmem
    obtain ⟨o', hfind, hhandling⟩ := hreuse.held b' hmem
    refine ⟨o', hfind, fun hsliced => ?_⟩
    rw [List.mem_cons]
    rintro (rfl | hm)
    · have hyes := hout.2 o' hfind hmem
      rw [hsliced] at hyes
      cases hyes
    · exact hhandling hsliced hm

end Apart

/-! ### Runs -/

/-- What a caller does and what `new` does: a buffer is passed on, or given back, by somebody who
    has it, and a new object has a place of its own. -/
def Fair (s : Notifications) : NotifyEvent → Prop
  | .getFreeBuffer size addr => MakesNew s size → s.buffers.find addr = none
  | .wrap addr _ => s.buffers.find addr = none
  | .reuse buffer | .onNotify _ buffer => buffer ∈ s.held
  | _ => True

/-- What is wanted of a state: the delegates read no buffer that is in a list, and no list has a
    buffer twice. -/
structure Owned (s : Notifications) : Prop where
  reading : ∀ b ∈ s.handling, ∀ c, b ∉ s.freeBuffers c
  nodup : ∀ c, (s.freeBuffers c).Nodup

/-- What is wanted of a request: nobody else has the buffer. -/
def Unused (s : Notifications) : NotifyEvent → Prop
  | .getFreeBuffer size addr =>
    (s.getFreeBuffer size addr).1 ∉ s.handling ∧ (s.getFreeBuffer size addr).1 ∉ s.held
  | _ => True

/-- There is no delegate, or the storage does not keep the buffer; and `new` does not return the
    place of a deleted buffer that a delegate still reads. -/
def Unlisted (s : Notifications) : NotifyEvent → Prop
  | .getFreeBuffer size addr => MakesNew s size → addr ∉ s.handling
  | .onNotify notifier buffer => s.delegates notifier = true → ¬ Listed s buffer
  | _ => True

theorem Apart.owned (h : Apart s) : Owned s :=
  ⟨fun b hb c hfree => (h.free c b hfree).2.2 hb, h.nodup⟩

theorem Apart.unused_iff (h : Apart s) (he : Fair s (.getFreeBuffer size addr)) :
    Unused s (.getFreeBuffer size addr) ↔ Unlisted s (.getFreeBuffer size addr) := by
  rcases getFreeBuffer_cases s size addr with
    ⟨c, buffer, rest, hlist, hnew, heq⟩ | ⟨hnew, capacity, heq⟩
  · rw [Unused, heq]
    obtain ⟨-, hheld, hhandling⟩ := h.free c buffer (by simp [hlist])
    exact ⟨fun _ hn => absurd hn hnew, fun _ => ⟨hhandling, hheld⟩⟩
  · rw [Unused, heq]
    have hheld : addr ∉ s.held := by
      intro hmem
      obtain ⟨o, hfind, -⟩ := h.held addr hmem
      rw [he hnew] at hfind
      cases hfind
    exact ⟨fun hu _ => hu.1, fun hu => ⟨hu hnew, hheld⟩⟩

theorem Apart.step (h : Apart s) {e : NotifyEvent} (he : Fair s e) (hu : Unlisted s e) :
    Apart (notifyStep s e) := by
  cases e with
  | getFreeBuffer size addr =>
    rw [notifyStep]
    rcases getFreeBuffer_cases s size addr with
      ⟨c, buffer, rest, hlist, hnew, heq⟩ | ⟨hnew, capacity, heq⟩
    · rw [heq]
      exact h.take hlist
    · rw [heq]
      exact h.create (he hnew) fun _ => hu hnew
  | wrap addr length => exact h.create he (by simp)
  | reuse buffer => exact h.reuse he
  | setDelegate notifier present => exact ⟨h.nodup, h.free, h.held⟩
  | onNotify notifier buffer =>
    rw [notifyStep, Notifications.onNotify]
    split
    next hdelegate => exact h.read he (hu hdelegate)
    next => exact h
  | returned buffer =>
    have hmem : ∀ b, b ∉ s.handling → b ∉ s.handling.erase buffer :=
      fun b hb hb' => hb (List.mem_of_mem_erase hb')
    refine ⟨h.nodup, ?_, ?_⟩
    · intro c b hb
      obtain ⟨hfind, hheld, hhandling⟩ := h.free c b hb
      exact ⟨hfind, hheld, hmem b hhandling⟩
    · intro b hb
      obtain ⟨o, hfind, hhandling⟩ := h.held b hb
      exact ⟨o, hfind, fun hsliced => hmem b (hhandling hsliced)⟩

/-- A listed buffer is in its list while the delegate reads it. -/
theorem not_owned_onNotify {notifier : Notifier} (hdelegate : s.delegates notifier = true)
    (hlisted : Listed s b) : ¬ Owned (notifyStep s (.onNotify notifier b)) := by
  intro hown
  have hobject := hlisted
  obtain ⟨o, -, ho, -⟩ := hobject
  rcases reuse_cases ho with ⟨-, hnot, -⟩ | ⟨-, hnot, -⟩ | ⟨-, c, rfl, heq⟩
  · exact hnot hlisted
  · exact hnot hlisted
  · have hread := hown.reading b
    rw [notifyStep, Notifications.onNotify, if_pos hdelegate] at hread
    refine hread (List.mem_cons_self ..) c ?_
    simp [heq]

theorem Apart.owned_iff (h : Apart s) {e : NotifyEvent} (he : Fair s e) :
    Owned (notifyStep s e) ∧ Unused s e ↔ Unlisted s e := by
  refine ⟨?_, fun hu => ⟨(h.step he hu).owned, ?_⟩⟩
  · rintro ⟨hown, hunused⟩
    cases e with
    | getFreeBuffer size addr => exact (h.unused_iff he).mp hunused
    | onNotify notifier buffer =>
      intro hdelegate hlisted
      exact not_owned_onNotify hdelegate hlisted hown
    | wrap | reuse | setDelegate | returned => trivial
  · cases e with
    | getFreeBuffer size addr => exact (h.unused_iff he).mpr hu
    | wrap | reuse | setDelegate | onNotify | returned => trivial

end

theorem apart_start : Apart .start := by
  refine ⟨?_, ?_, ?_⟩
  · intro c
    cases c <;> decide
  · intro c
    cases c <;> decide
  · intro b hb
    cases hb

/-- Buffers have one user in every state of a run exactly if no notification lists its buffer. -/
theorem owned_iff_unlisted (es : List NotifyEvent) (hes : EachStep notifyStep Fair .start es) :
    EachStep notifyStep (fun s e => Owned (notifyStep s e) ∧ Unused s e) .start es ↔
      EachStep notifyStep Unlisted .start es := by
  refine EachStep.congr_of_invariant Apart ?_ ?_ apart_start hes
  · intro s e h he hown
    exact h.step he ((h.owned_iff he).mp hown)
  · intro s e h he
    exact h.owned_iff he

/-- A delegate asks for a buffer while it reads one of that size. -/
def asksAgain : List NotifyEvent :=
  [.setDelegate .accountManager true, .getFreeBuffer 1000 9, .onNotify .accountManager 9]

theorem not_owned_asksAgain :
    EachStep notifyStep Fair .start asksAgain ∧
      ¬ EachStep notifyStep (fun s e => Owned (notifyStep s e) ∧ Unused s e) .start asksAgain ∧
      ((asksAgain.foldl notifyStep .start).getFreeBuffer 1000 10).1 = 9 ∧
      9 ∈ (asksAgain.foldl notifyStep .start).handling := by
  refine ⟨⟨trivial, fun _ => rfl, .head _, trivial⟩, ?_, by decide, by decide⟩
  rintro ⟨-, -, ⟨hown, -⟩, -⟩
  exact hown.reading 9 (by decide) .b1024 (by decide)

/-- A notification while there is no delegate, one in memory of the caller's own, and one that is
    larger than the storage keeps. -/
def keepsApart : List NotifyEvent :=
  [.getFreeBuffer 1000 9, .onNotify .accountManager 9, .reuse 9, .setDelegate .accountManager true,
    .wrap 10 100, .onNotify .accountManager 10, .getFreeBuffer 200000 11,
    .onNotify .accountManager 11, .returned 11, .returned 10, .getFreeBuffer 1000 11]

theorem owned_keepsApart :
    EachStep notifyStep (fun s e => Owned (notifyStep s e) ∧ Unused s e) .start keepsApart := by
  refine (owned_iff_unlisted keepsApart ?_).mpr ?_
  · exact ⟨fun _ => rfl, .head _, .head _, trivial, rfl, .head _, fun _ => rfl, .head _, trivial,
      trivial, fun _ => rfl, trivial⟩
  · have hother : (11 : BufferRef) ∉ [10] := by decide
    refine ⟨fun _ => List.not_mem_nil, ?_, trivial, trivial, trivial, ?_, fun _ => hother, ?_,
      trivial, trivial, fun _ => List.not_mem_nil, trivial⟩
    · intro hdelegate
      cases hdelegate
    · rintro - ⟨o, c, ho, hsliced, -⟩
      cases ho
      cases hsliced
    · rintro - ⟨o, c, ho, -, hc, -⟩
      cases ho
      cases hc

end Notify

end Net
end Proof
end PtpCore
