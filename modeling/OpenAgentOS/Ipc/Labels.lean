import OpenAgentOS.Ipc.Refinement

/-!
# Labels for the messages in a mailbox

Two messages in a mailbox can be equal. To follow one of them, a mailbox is
accompanied by labels: a pair of queues of the same shape, with a number for every
message that was sent, and `none` for the summaries that compaction puts there.

- `Labels.push`, `Labels.pop`, `Labels.compact`: what the mailbox operations do to
  labels.
- `Labelled R box l`: the labels `l` lie next to messages of `box` for which they
  stand, by `R`. Every mailbox operation keeps this.
-/

namespace OpenAgentOS

/-- Two queues of labels. -/
structure Labels where
  steer : List (Option Nat)
  normal : List (Option Nat)

namespace Labels

def empty : Labels := ⟨[], []⟩

/-- Append to the queue for messages of this type. -/
def push (l : Labels) (type : Int) (t : Option Nat) : Labels :=
  if type = msgSteer then { l with steer := l.steer ++ [t] } else { l with normal := l.normal ++ [t] }

/-- Take the label of the message that is popped. -/
def pop : Labels → Option Nat × Labels
  | ⟨t :: steer, normal⟩ => (t, ⟨steer, normal⟩)
  | ⟨[], t :: normal⟩ => (t, ⟨[], normal⟩)
  | ⟨[], []⟩ => (none, ⟨[], []⟩)

/-- How many messages compaction folds. -/
def foldCount (l : Labels) (keep : Int) : Nat := l.normal.length - clampKeep keep

/-- The labels of the messages that compaction folds. -/
def folded (l : Labels) (keep : Int) : List (Option Nat) := l.normal.take (l.foldCount keep)

/-- The labels afterwards. -/
def compact (l : Labels) (keep : Int) : Labels :=
  if l.normal.length ≤ clampKeep keep then l
  else { l with normal := none :: l.normal.drop (l.foldCount keep) }

/-- Message `n` is in the mailbox. -/
def Mem (l : Labels) (n : Nat) : Prop := some n ∈ l.steer ∨ some n ∈ l.normal

variable {l : Labels} {n : Nat}

theorem mem_push {type : Int} {t : Option Nat} : (l.push type t).Mem n ↔ l.Mem n ∨ t = some n := by
  unfold push Mem
  split_ifs
  · rw [List.mem_append, List.mem_singleton, eq_comm]
    tauto
  · rw [List.mem_append, List.mem_singleton, eq_comm]
    tauto

theorem mem_pop : l.Mem n ↔ l.pop.1 = some n ∨ l.pop.2.Mem n := by
  obtain ⟨steer, normal⟩ := l
  unfold Mem
  cases steer with
  | cons t steer =>
    rw [pop, List.mem_cons, eq_comm]
    tauto
  | nil =>
    cases normal with
    | cons t normal =>
      rw [pop, List.mem_cons, eq_comm]
      tauto
    | nil => simp [pop]

theorem mem_compact {keep : Int} : l.Mem n ↔ some n ∈ l.folded keep ∨ (l.compact keep).Mem n := by
  unfold Mem compact
  split_ifs with hkeep
  · have hnone : l.folded keep = [] := by
      rw [folded, foldCount, Nat.sub_eq_zero_of_le hkeep, List.take_zero]
    simp [hnone]
  · have hsplit : some n ∈ l.normal ↔
        some n ∈ l.folded keep ∨ some n ∈ l.normal.drop (l.foldCount keep) := by
      rw [folded, ← List.mem_append, List.take_append_drop]
    rw [List.mem_cons, hsplit]
    simp only [reduceCtorEq, false_or]
    tauto

end Labels

/-! ## Labels next to messages -/

/-- The labels lie next to the messages they stand for. -/
def Labelled (R : Option Nat → AgentMsg → Prop) (box : Msgbox) (l : Labels) : Prop :=
  ∃ m, Refines box m ∧ List.Forall₂ R l.steer m.steer ∧ List.Forall₂ R l.normal m.normal

section Labelled

variable {R : Option Nat → AgentMsg → Prop} {box box' : Msgbox} {l : Labels}

theorem labelled_init (R : Option Nat → AgentMsg → Prop) (box : Msgbox) :
    Labelled R (msgboxInit box) .empty :=
  ⟨.empty, refines_init box, .nil, .nil⟩

theorem Labelled.mono {R' : Option Nat → AgentMsg → Prop} (himp : ∀ t msg, R t msg → R' t msg)
    (h : Labelled R box l) : Labelled R' box l := by
  obtain ⟨m, hm, hsteer, hnormal⟩ := h
  exact ⟨m, hm, hsteer.imp himp, hnormal.imp himp⟩

theorem Labelled.push {msg : AgentMsg} {t : Option Nat} (h : Labelled R box l)
    (hpush : msgboxPush box msg = (0, box')) (ht : R t msg) :
    Labelled R box' (l.push msg.type t) := by
  obtain ⟨m, hm, hsteer, hnormal⟩ := h
  obtain ⟨hrc, hbox⟩ := refines_push hm msg
  rw [hpush] at hrc hbox
  refine ⟨_, hbox, ?_⟩
  unfold Mailbox.push at hrc ⊢
  unfold Labels.push
  split_ifs at hrc ⊢ with htype hroom hroom
  · exact ⟨List.rel_append hsteer (.cons ht .nil), hnormal⟩
  · cases hrc
  · exact ⟨hsteer, List.rel_append hnormal (.cons ht .nil)⟩
  · cases hrc

theorem Labelled.pop {msg : AgentMsg} (h : Labelled R box l)
    (hpop : msgboxPop box = (.ok msg, box')) : R l.pop.1 msg ∧ Labelled R box' l.pop.2 := by
  obtain ⟨⟨steer, normal, hsle, hnle⟩, hm, hsteer, hnormal⟩ := h
  obtain ⟨ls, ln⟩ := l
  obtain ⟨hmsg, hbox⟩ := refines_pop hm
  rw [hpop] at hmsg hbox
  dsimp only at hsteer hnormal
  cases hsteer with
  | cons ht hrest =>
    cases hmsg
    exact ⟨ht, _, hbox, hrest, hnormal⟩
  | nil =>
    cases hnormal with
    | cons ht hrest =>
      cases hmsg
      exact ⟨ht, _, hbox, .nil, hrest⟩
    | nil => cases hmsg

theorem Labelled.compact (hsummary : ∀ msg, R none msg) (h : Labelled R box l) (keep : Int) :
    Labelled R (msgboxCompact box keep).2 (l.compact keep) := by
  obtain ⟨m, hm, hsteer, hnormal⟩ := h
  obtain ⟨-, hbox⟩ := refines_compact hm keep
  have hlen : l.normal.length = m.normal.length := hnormal.length_eq
  refine ⟨_, hbox, ?_⟩
  rw [Mailbox.compact, ← clampKeep_eq]
  unfold Mailbox.keepLast Labels.compact
  by_cases hkeep : clampKeep keep < m.normal.length
  · rw [dif_pos hkeep, if_neg (by omega)]
    refine ⟨hsteer, .cons (hsummary _) ?_⟩
    rw [List.rtake, Labels.foldCount, hlen]
    exact List.forall₂_drop _ hnormal
  · rw [dif_neg hkeep, if_pos (by omega)]
    exact ⟨hsteer, hnormal⟩

end Labelled

end OpenAgentOS
