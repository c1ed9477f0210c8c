import HttpFs.Foundation.Logged

namespace HttpFs

/-- A reading of a record of events: the state that they lead to, what the environment
promises of them, and what is asked of each in the state it meets. -/
structure Audit (σ ω : Type) where
  after : σ → ω → σ
  promised : ω → Prop
  sound : σ → ω → Prop

namespace Audit

variable {σ ω α β : Type} (audit : Audit σ ω)

def replay (state : σ) (events : List ω) : σ := events.foldl audit.after state

def Passes : σ → List ω → Prop
  | _, [] => True
  | state, event :: events => audit.sound state event ∧ Passes (audit.after state event) events

variable {audit}

theorem replay_append (state : σ) (first second : List ω) :
    audit.replay state (first ++ second) = audit.replay (audit.replay state first) second :=
  List.foldl_append

theorem passes_append (state : σ) (first second : List ω) :
    audit.Passes state (first ++ second) ↔
      audit.Passes state first ∧ audit.Passes (audit.replay state first) second := by
  induction first generalizing state with
  | nil => simp only [List.nil_append, Passes, replay, List.foldl_nil, true_and]
  | cons event events induction =>
      rw [List.cons_append, Passes, Passes, induction, and_assoc]
      rfl

variable (audit)

/-- The record of a computation passes, and its value is as wanted, if the environment keeps
its promises. -/
def Meets (state : σ) (computation : Logged ω α) (post : σ → α → Prop) : Prop :=
  computation.All audit.promised →
    audit.Passes state computation.log ∧
      post (audit.replay state computation.log) computation.value

variable {audit}

theorem meets_pure {state : σ} {value : α} {post : σ → α → Prop} (holds : post state value) :
    audit.Meets state (pure value) post :=
  fun _ => ⟨trivial, holds⟩

theorem meets_note {state : σ} {event : ω} {post : σ → Unit → Prop}
    (holds : audit.promised event →
      audit.sound state event ∧ post (audit.after state event) ()) :
    audit.Meets state (Logged.note event) post := by
  intro promised
  obtain ⟨sound, after⟩ := holds (promised event (List.mem_singleton_self event))
  exact ⟨⟨sound, trivial⟩, after⟩

theorem meets_bind {state : σ} {first : Logged ω α} {next : α → Logged ω β}
    {middle : σ → α → Prop} {post : σ → β → Prop} (meetsFirst : audit.Meets state first middle)
    (meetsNext : ∀ reached value, middle reached value →
      audit.Meets reached (next value) post) :
    audit.Meets state (first >>= next) post := by
  intro promised
  rw [Logged.All, Logged.log_bind] at promised
  obtain ⟨firstPasses, between⟩ := meetsFirst fun event member =>
    promised event (List.mem_append_left _ member)
  obtain ⟨nextPasses, holds⟩ := meetsNext _ _ between fun event member =>
    promised event (List.mem_append_right _ member)
  rw [Logged.log_bind, Logged.value_bind, passes_append, replay_append]
  exact ⟨⟨firstPasses, nextPasses⟩, holds⟩

theorem meets_mono {state : σ} {computation : Logged ω α} {wanted post : σ → α → Prop}
    (meets : audit.Meets state computation wanted)
    (weaker : ∀ reached value, wanted reached value → post reached value) :
    audit.Meets state computation post := by
  intro promised
  obtain ⟨passes, holds⟩ := meets promised
  exact ⟨passes, weaker _ _ holds⟩

theorem meets_note_bind {state : σ} {event : ω} {next : Logged ω α} {post : σ → α → Prop}
    (sound : audit.promised event → audit.sound state event)
    (meetsNext : audit.promised event → audit.Meets (audit.after state event) next post) :
    audit.Meets state (Logged.note event >>= fun _ => next) post := by
  have noted : audit.Meets state (Logged.note event)
      (fun reached _ => audit.promised event ∧ reached = audit.after state event) :=
    meets_note fun promised => ⟨sound promised, promised, rfl⟩
  apply meets_bind noted
  intro reached _ ended
  obtain ⟨promised, isAfter⟩ := ended
  subst isAfter
  exact meetsNext promised

variable {ω' : Type}

/-- The reading of a record whose events are labelled for another one. -/
def comap (label : ω → ω') (audit : Audit σ ω') : Audit σ ω where
  after := fun state event => audit.after state (label event)
  promised := fun event => audit.promised (label event)
  sound := fun state event => audit.sound state (label event)

theorem replay_map (label : ω → ω') (audit : Audit σ ω') (state : σ) (events : List ω) :
    audit.replay state (events.map label) = (audit.comap label).replay state events :=
  List.foldl_map

theorem passes_map (label : ω → ω') (audit : Audit σ ω') (state : σ) (events : List ω) :
    audit.Passes state (events.map label) ↔ (audit.comap label).Passes state events := by
  induction events generalizing state with
  | nil => exact Iff.rfl
  | cons event events induction => exact and_congr Iff.rfl (induction _)

theorem meets_relabel {label : ω → ω'} {audit : Audit σ ω'} {state : σ}
    {computation : Logged ω α} {post : σ → α → Prop}
    (meets : (audit.comap label).Meets state computation post) :
    audit.Meets state (computation.relabel label) post := by
  intro promised
  obtain ⟨passes, holds⟩ := meets fun event member =>
    promised (label event) (List.mem_map_of_mem member)
  refine ⟨(passes_map label audit state computation.log).mpr passes, ?_⟩
  rw [Logged.log_relabel, replay_map]
  exact holds

end Audit

end HttpFs
