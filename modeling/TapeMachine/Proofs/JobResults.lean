import TapeMachine.Proofs.Jobs

/-!
# Results of jobs

Most jobs show something on their way, which nothing depends on.  So what a job gives is told
without it: the result, and a desk on which anything may have been shown.

* `Desk.perform_rescue`, `Desk.perform_attempt`: faults that do not end a job.
* `Desk.Gives`, `Desk.Fails`: what a job gives, and the fault that ends it; `Gives.bind` and
  `Fails.after` are for chains of jobs.
* `Job.perform_ask_of_cons`, `gives_ask`: the answer to a question.
-/

namespace TapeMachine

variable {α β : Type}

namespace Desk

/-! ### Parts of jobs -/

theorem of_perform_bind {d d' : Desk} {x : Job α} {f : α → Job β} {b : β}
    (h : d.perform (x >>= f) = (.ok b, d')) :
    ∃ a d₁, d.perform x = (.ok a, d₁) ∧ d₁.perform (f a) = (.ok b, d') := by
  rw [perform_bind] at h
  rcases hx : d.perform x with ⟨fault | a, d₁⟩
  · rw [hx] at h
    cases h
  · rw [hx] at h
    exact ⟨a, d₁, rfl, h⟩

theorem perform_map_of_ok {d d' : Desk} {x : Job α} {a : α} (h : d.perform x = (.ok a, d'))
    (g : α → β) : d.perform (g <$> x) = (.ok (g a), d') := by
  rw [map_eq_pure_bind, perform_bind_of_ok h]
  rfl

theorem of_perform_map {d d' : Desk} {x : Job α} {g : α → β} {b : β}
    (h : d.perform (g <$> x) = (.ok b, d')) : ∃ a, d.perform x = (.ok a, d') ∧ b = g a := by
  rw [map_eq_pure_bind] at h
  obtain ⟨a, d₁, hx, hpure⟩ := of_perform_bind h
  cases hpure
  exact ⟨a, hx, rfl⟩

theorem of_perform_take {ε : Type} {d d' : Desk} {wrap : ε → Fault} {result : Except ε α} {a : α}
    (h : d.perform (Job.take wrap result) = (.ok a, d')) : result = .ok a := by
  cases result with
  | error fault => cases h
  | ok a' =>
    cases h
    rfl

theorem perform_rescue (d : Desk) (sort : Fault → Bool) (job : Job α) (other : Fault → Job α) :
    d.perform (Job.rescue sort job other) =
      match d.perform job with
      | (.ok a, d') => (.ok a, d')
      | (.error fault, d') => d'.perform (if sort fault then other fault else Job.fail fault) := by
  rw [Job.rescue, perform, ExceptT.run_tryCatch, StateT.run_bind]
  unfold perform
  rcases (ExceptT.run job).run d with ⟨fault | a, d'⟩
  · rfl
  · rfl

theorem perform_attempt (d : Desk) (job : Job α) :
    d.perform (Job.attempt job) = (.ok (d.perform job).1, (d.perform job).2) := by
  rw [Job.attempt, perform, ExceptT.run_tryCatch, ExceptT.run_map, StateT.run_bind, StateT.run_map]
  unfold perform
  rcases (ExceptT.run job).run d with ⟨fault | a, d'⟩
  · rfl
  · rfl

/-! ### Results and faults -/

/-- The job gives the result and leaves the desk as told, whatever was shown before and in it. -/
def Gives (d : Desk) (job : Job α) (a : α) (d' : Desk) : Prop :=
  ∀ events, ∃ events', perform { d with events } job = (.ok a, { d' with events := events' })

namespace Gives

variable {d d₁ d₂ : Desk} {x : Job α} {f : α → Job β} {a : α} {b : β}

theorem pure (d : Desk) (a : α) : d.Gives (Pure.pure a) a d := fun events => ⟨events, rfl⟩

theorem bind (hx : d.Gives x a d₁) (hf : d₁.Gives (f a) b d₂) : d.Gives (x >>= f) b d₂ := by
  intro events
  obtain ⟨events', he⟩ := hx events
  obtain ⟨events'', he'⟩ := hf events'
  exact ⟨events'', (perform_bind_of_ok he).trans he'⟩

theorem map {g : α → β} (hx : d.Gives x a d₁) : d.Gives (g <$> x) (g a) d₁ := by
  rw [map_eq_pure_bind]
  exact hx.bind (.pure d₁ (g a))

theorem get {f : Desk → Job β} (hf : ∀ events, d.Gives (f { d with events }) b d₂) :
    d.Gives (MonadState.get >>= f) b d₂ := fun events => hf events events

theorem of_shows {job : Job Unit} (h : Job.OnlyShows job) (d : Desk) : d.Gives job () d :=
  fun events => h { d with events }

end Gives

/-- The fault ends the job, whatever was shown before. -/
def Fails (d : Desk) (job : Job α) (fault : Fault) : Prop :=
  ∀ events, ∃ d', perform { d with events } job = (.error fault, d')

namespace Fails

variable {d d₁ : Desk} {x : Job α} {f : α → Job β} {a : α} {fault : Fault}

theorem bind (h : d.Fails x fault) : d.Fails (x >>= f) fault := by
  intro events
  obtain ⟨d', he⟩ := h events
  exact ⟨d', perform_bind_of_error he⟩

theorem after (hx : d.Gives x a d₁) (hf : d₁.Fails (f a) fault) :
    d.Fails (x >>= f) fault := by
  intro events
  obtain ⟨events', he⟩ := hx events
  obtain ⟨d', he'⟩ := hf events'
  exact ⟨d', (perform_bind_of_ok he).trans he'⟩

theorem map {g : α → β} (h : d.Fails x fault) : d.Fails (g <$> x) fault := by
  rw [map_eq_pure_bind]
  exact h.bind

end Fails

end Desk

/-! ### Showing and asking -/

namespace Job

theorem onlyShows_emit (event : Event) : OnlyShows (emit event) := fun _ => ⟨_, rfl⟩

theorem onlyShows_print (text : String) : OnlyShows (print text) := onlyShows_emit _

theorem onlyShows_printStyled (style text : String) : OnlyShows (printStyled style text) :=
  onlyShows_emit _

theorem OnlyShows.bind {x y : Job Unit} (hx : OnlyShows x) (hy : OnlyShows y) :
    OnlyShows (x >>= fun _ => y) := fun d =>
  Desk.Gives.bind (.of_shows hx d) (.of_shows hy d) d.events

/-- The answer that counts: null stands for the preset one. -/
def answered (preset : Json) : Json → Json
  | .null => preset
  | answer => answer

theorem perform_ask_of_cons {d : Desk} {answer : Json} {rest : List Json}
    (h : d.answers = answer :: rest) (q : Question) :
    d.perform (ask q) =
      (.ok (answered q.preset answer),
        { d with answers := rest, events := d.events.push (.ask q) }) := by
  obtain ⟨disk, clock, answers, events, nesting⟩ := d
  cases h
  cases answer <;> rfl

theorem perform_ask_of_nil {d : Desk} (h : d.answers = []) (q : Question) :
    d.perform (ask q) = (.error .noAnswer, { d with events := d.events.push (.ask q) }) := by
  obtain ⟨disk, clock, answers, events, nesting⟩ := d
  cases h
  rfl

theorem gives_ask {d : Desk} {answer : Json} {rest : List Json} (h : d.answers = answer :: rest)
    (q : Question) : d.Gives (ask q) (answered q.preset answer) { d with answers := rest } := by
  intro events
  have hd : ({ d with events } : Desk).answers = answer :: rest := h
  exact ⟨_, perform_ask_of_cons hd q⟩

end Job

end TapeMachine
