import CiPipeline.Proofs.Act

/-
What comes of starting a command, and how it leaves the host (`Command.on_start`): it ends by itself with some
code, or it is refused, or one cannot read its output or wait for its end, or it takes too long, or it is
interrupted. What is printed in between makes no difference to that. The journal says which commands were
started; what an act starts is followed here through sequences (`Act.Starts`), or of what kind it is
(`Act.StartsOnly`).
-/

namespace CiPipeline

namespace Host

/-- The host but for what was printed and started. -/
def bare (h : Host) : Host := { h with journal := [] }

/-- The commands that were started, in order. -/
def started (h : Host) : List Command := h.journal.filterMap fun
  | .started c => some c
  | _ => none

@[simp] theorem bare_noting (h : Host) (events : List Event) : (Act.noting h events).bare = h.bare := rfl

theorem started_noting (h : Host) {events : List Event} (hprint : ∀ e ∈ events, Act.IsPrint e) :
    (Act.noting h events).started = h.started := by
  have hnone : events.filterMap (fun | .started c => some c | _ => none) = ([] : List Command) := by
    rw [List.filterMap_eq_nil_iff]
    intro e he
    have hprint := hprint e he
    cases e <;> first | rfl | cases hprint
  rw [started, started, Act.noting, List.filterMap_append, hnone, List.append_nil]

end Host

namespace Command

variable {α : Type} {c : Command} {argv : List String} {h k : Host}

/-- What comes of a command that is started on a host. -/
def outcome (c : Command) (h : Host) : Except Fault Ended :=
  match c.refusal? h with
  | some f => .error f
  | none => c.ending (h.respond h.answered c)

/-- The host as a command leaves it that is started there; what is refused is not recorded as answered. -/
def left (c : Command) (h : Host) : Host :=
  if (c.refusal? h).isSome then Act.noting h [.started c]
  else Host.written { Act.noting h [.started c] with answered := h.answered ++ [c] } (c.writes (h.respond h.answered c))

/-- What comes of a command that is tried: nothing if it cannot be run or takes too long. -/
def attempted (c : Command) (h : Host) : Except Fault (Option Ended) :=
  match c.outcome h with
  | .ok e => .ok (some e)
  | .error f => if f.isOs || f.isTimeout then .ok none else .error f

theorem on_start (c : Command) (h : Host) : c.start.on h = (c.outcome h, c.left h) := by
  have hrecord : (Act.record (.started c)).on h = (.ok (), Act.noting h [.started c]) := rfl
  have hsame : c.refusal? (Act.noting h [.started c]) = c.refusal? h := rfl
  rw [start, Act.on_bind_ok hrecord, Act.on_bind_ok (Act.on_get _), hsame, outcome, left]
  cases c.refusal? h with
  | some f => rfl
  | none => exact (Act.on_bind_ok rfl).trans (Act.on_ofExcept_id _ _)

theorem on_demand (c : Command) (h : Host) : c.demand.on h =
    (c.outcome h >>= fun e => if e.isSuccess then .ok e else .error (.commandFailed c.program e.code), c.left h) := by
  rw [demand, Act.on_bind, on_start]
  cases c.outcome h with
  | error f => rfl
  | ok e => cases hsuccess : e.isSuccess <;> simp [hsuccess, bind, Except.bind]

/-- A command that is tried gives what is made of its end, if it came to one. -/
theorem on_tried (c : Command) (g : Ended → Option α) (h : Host) :
    ((g <$> c.start).recover (fun f => f.isOs || f.isTimeout) fun _ => pure none).on h =
      ((c.attempted h).map (·.bind g), c.left h) := by
  have hstart := on_start c h
  unfold attempted
  cases houtcome : c.outcome h with
  | ok e =>
    rw [houtcome] at hstart
    refine Act.on_recover_ok ?_ _ _
    rw [map_eq_pure_bind, Act.on_bind_ok hstart]
    rfl
  | error f =>
    rw [houtcome] at hstart
    have hmap : (g <$> c.start).on h = (.error f, c.left h) := by
      rw [map_eq_pure_bind, Act.on_bind_error hstart]
    rw [Act.on_recover_error hmap]
    simp only
    split <;> rfl

/-! ## Outcomes -/

/-- The fault of a command that one cannot wait for. -/
theorem waitFault?_eq_some {f : Fault} (hf : c.waitFault? = some f) :
    f = .limitTooLong ∨ f = .infinite ∨ f = .notANumber := by
  obtain ⟨limit, -, hlimit⟩ := Option.bind_eq_some_iff.1 hf
  cases limit with
  | int n =>
    rw [Number.waitFault?] at hlimit
    split at hlimit <;> cases hlimit
    exact .inl rfl
  | real x =>
    rw [Number.waitFault?] at hlimit
    split at hlimit
    · cases hlimit
      exact .inr (.inr rfl)
    split at hlimit
    · cases hlimit
      exact .inr (.inl rfl)
    split at hlimit <;> cases hlimit
    exact .inl rfl

theorem awaited_eq_error {e : Except Fault Ended} {f : Fault} (hf : c.awaited e = .error f) :
    c.waitFault? = some f ∨ e = .error f := by
  unfold awaited at hf
  split at hf
  · rename_i g hg
    cases hf
    exact .inl hg
  · exact .inr hf

/-- Why a command does not come to an end that can be told: the system refuses it, also because of its
directory; a null character stands in it, or a value that is no word; one cannot wait for it, or read what it
prints; it takes too long; or it is interrupted. -/
inductive Fails (c : Command) (h : Host) : Fault → Prop
  | refused (e : OsError) (about : String) : Fails c h (.os e about)
  | null (hnull : c.hasNull = true) : Fails c h .nullInPath
  | noWord {i : Nat} {kind : String} (hword : c.program.wordFault? = some (.notWord i kind)) :
      Fails c h (.notWord i kind)
  | unawaited {f : Fault} (hf : c.waitFault? = some f) : Fails c h f
  | unread {code : Int} {why : String} {files : List (String × String)} (hreads : c.reads = true)
      (hreply : h.respond h.answered c = .garbled code why files) : Fails c h (.undecodable why)
  | overran : Fails c h (.overran c.program c.timeout)
  | interrupted (hreply : h.respond h.answered c = .interrupted) : Fails c h .interrupted

theorem wordFault?_eq_some {p : Program} {f : Fault} (hf : p.wordFault? = some f) : ∃ i kind, f = .notWord i kind := by
  cases p with
  | values items =>
    cases hf
    exact ⟨_, _, rfl⟩
  | words argv => cases hf
  | line text => cases hf

theorem directoryFault_eq_some {directory : String} {f : Fault} (hf : h.directoryFault directory = some f) :
    ∃ e, f = .os e directory := by
  unfold Host.directoryFault at hf
  split at hf
  · cases hf
  · cases hf
    exact ⟨_, rfl⟩
  · cases hf
    exact ⟨_, rfl⟩

theorem fails_of_refusal {f : Fault} (hf : c.refusal? h = some f) : Fails c h f := by
  unfold refusal? at hf
  split at hf
  case isTrue hnull =>
    cases hf
    exact .null hnull
  case isFalse =>
    rcases Option.or_eq_some_iff.1 hf with hdirectory | ⟨-, hword⟩
    · obtain ⟨d, -, hd⟩ := Option.bind_eq_some_iff.1 hdirectory
      obtain ⟨e, rfl⟩ := directoryFault_eq_some hd
      exact .refused e d
    · obtain ⟨i, kind, rfl⟩ := wordFault?_eq_some hword
      exact .noWord hword

theorem fails_of_outcome {f : Fault} (hf : c.outcome h = .error f) : Fails c h f := by
  unfold outcome at hf
  split at hf
  case h_1 g hrefusal =>
    cases hf
    exact fails_of_refusal hrefusal
  case h_2 =>
    cases hr : h.respond h.answered c with
    | ended code out err files =>
      rw [hr] at hf
      rcases awaited_eq_error hf with hwait | hok
      · exact .unawaited hwait
      · cases hok
    | garbled code why files =>
      rw [hr] at hf
      rcases awaited_eq_error hf with hwait | hread
      · exact .unawaited hwait
      · split at hread
        · rename_i hreads
          cases hread
          exact .unread hreads hr
        · cases hread
    | refused e =>
      rw [hr] at hf
      cases hf
      exact .refused e _
    | overran =>
      rw [hr] at hf
      cases hf
      exact .overran
    | interrupted =>
      rw [hr] at hf
      cases hf
      exact .interrupted hr

/-- The fault of a command is none of the pipeline's own, and not that of a command that had to succeed. -/
theorem Fails.foreign {f : Fault} (hf : Fails c h f) : f.faultClass.isPipeline = false ∧ f.isCommandFailed = false := by
  cases hf with
  | refused e about => cases e <;> exact ⟨rfl, rfl⟩
  | unawaited hwait => rcases waitFault?_eq_some hwait with rfl | rfl | rfl <;> exact ⟨rfl, rfl⟩
  | _ => exact ⟨rfl, rfl⟩

theorem isCommandFailed_of_outcome {f : Fault} (hf : c.outcome h = .error f) : f.isCommandFailed = false :=
  (fails_of_outcome hf).foreign.2

theorem isPipeline_of_outcome {f : Fault} (hf : c.outcome h = .error f) : f.faultClass.isPipeline = false :=
  (fails_of_outcome hf).foreign.1

/-- A command that is answered comes to what the reply amounts to. -/
theorem outcome_of_answered (hrefusal : c.refusal? h = none) : c.outcome h = c.ending (h.respond h.answered c) := by
  rw [outcome, hrefusal]

theorem refusal?_eq_none (hnull : c.hasNull = false) (hdirectory : c.cwd.bind h.directoryFault = none)
    (hword : c.program.wordFault? = none) : c.refusal? h = none := by
  rw [refusal?, hnull, hdirectory, hword]
  rfl

/-- Words without a null character, in no directory and environment of their own, are not refused by the host. -/
theorem refusal?_words {argv : List String} {limit : Option Number} {reads : Bool}
    (hnull : argv.any Text.hasNull = false) (h : Host) :
    refusal? { program := .words argv, timeout := limit, reads := reads } h = none := by
  have hfree : hasNull { program := .words argv, timeout := limit, reads := reads } = false := by
    simp [hasNull, Program.hasNull, hnull]
  rw [refusal?, hfree]
  rfl

/-! ## What is left -/

theorem left_eq (c : Command) (h : Host) : c.left h =
    { h with
      files := (c.left h).files
      answered := (c.left h).answered
      journal := h.journal ++ [.started c] } := by
  unfold left
  split <;> rfl

theorem started_left (c : Command) (h : Host) : (c.left h).started = h.started ++ [c] := by
  rw [left_eq, Host.started, Host.started, List.filterMap_append]
  rfl

theorem respond_left (c : Command) (h : Host) : (c.left h).respond = h.respond := by
  rw [left_eq]

/-- A command is recorded as answered if something came of it. -/
theorem answered_left_of_ok {e : Ended} (hok : c.outcome h = .ok e) : (c.left h).answered = h.answered ++ [c] := by
  rw [outcome] at hok
  cases hrefusal : c.refusal? h with
  | some f => rw [hrefusal] at hok; cases hok
  | none => rw [left, hrefusal]; rfl

/-- A command that was answered, and took too long, was stopped at its limit. -/
theorem outcome_of_overran (hanswered : (c.left h).answered = h.answered ++ [c])
    (hreply : h.respond h.answered c = .overran) : c.outcome h = .error (.overran c.program c.timeout) := by
  cases hrefusal : c.refusal? h with
  | some f =>
    rw [left, hrefusal] at hanswered
    exact absurd (List.self_eq_append_right.1 hanswered) (List.cons_ne_nil c [])
  | none => rw [outcome, hrefusal, hreply, ending]

/-! ## Printing makes no difference -/

theorem outcome_bare (c : Command) (h : Host) : c.outcome h.bare = c.outcome h := rfl

theorem outcome_congr (hbare : h.bare = k.bare) (c : Command) : c.outcome h = c.outcome k := by
  rw [← outcome_bare, hbare, outcome_bare]

theorem bare_left (c : Command) (h : Host) : (c.left h).bare = (c.left h.bare).bare := by
  have hrefusal : c.refusal? h.bare = c.refusal? h := rfl
  unfold left
  rw [hrefusal]
  split <;> rfl

theorem bare_left_congr (hbare : h.bare = k.bare) (c : Command) : (c.left h).bare = (c.left k).bare := by
  rw [bare_left, hbare, ← bare_left]

end Command

/-! ## What acts start -/

namespace Host

/-- What is there of a host besides the files and what is recorded. -/
def frame (h : Host) : Host := { h with files := {}, answered := [], journal := [] }

/-- No command is interrupted, whatever was started before. -/
def Calm (h : Host) : Prop := ∀ past c, h.respond past c ≠ .interrupted

variable {h k : Host}

theorem frame_of_bare (hbare : h.bare = k.bare) : h.frame = k.frame := by
  have hframe : h.bare.frame = k.frame := by rw [hbare]; rfl
  exact hframe

theorem frame_noting (h : Host) (events : List Event) : (Act.noting h events).frame = h.frame := rfl

theorem frame_left (h : Host) (c : Command) : (c.left h).frame = h.frame := by
  rw [Command.left_eq]
  rfl

/-- Acts that leave everything but files and records leave it one after another. -/
theorem frame_forM {α : Type} {f : α → Act Unit} (hf : ∀ a h, ((f a).on h).2.frame = h.frame) (l : List α) (h : Host) :
    ((l.forM f).on h).2.frame = h.frame :=
  Act.keeps_forM hf l h

theorem display_of_frame (hframe : k.frame = h.frame) : k.display = h.display := by
  have hdisplay : k.frame.display = h.frame.display := by rw [hframe]
  exact hdisplay

theorem Calm.congr (hcalm : h.Calm) (hframe : k.frame = h.frame) : k.Calm := by
  have hrespond : k.frame.respond = h.frame.respond := by rw [hframe]
  intro past c
  rw [show k.respond = h.respond from hrespond]
  exact hcalm past c

/-- Without interruptions, one that cannot be put down to the system or to the time that it takes is that of a
command that holds what is no word, that one cannot wait for, or whose output cannot be read. -/
theorem Calm.fails_of_outcome (hcalm : h.Calm) {c : Command} {f : Fault} (hf : c.outcome h = .error f) :
    c.Fails h f ∧ f ≠ .interrupted := by
  have hfails := Command.fails_of_outcome hf
  refine ⟨hfails, ?_⟩
  rintro rfl
  generalize hi : Fault.interrupted = f at hfails
  cases hfails with
  | interrupted hreply => exact hcalm _ _ hreply
  | unawaited hwait => rcases Command.waitFault?_eq_some hwait with rfl | rfl | rfl <;> cases hi
  | _ => cases hi

end Host

namespace Act

variable {α β : Type} {x : Act α} {h : Host} {cs ds : List Command}

/-- What an act starts on a host is a beginning of some commands, and all of them if it gives a value.
Besides that it changes the files at most. -/
structure Starts (x : Act α) (h : Host) (cs : List Command) : Prop where
  frame : (x.on h).2.frame = h.frame
  started : ∃ done, done <+: cs ∧ (x.on h).2.started = h.started ++ done ∧ ∀ a, (x.on h).1 = .ok a → done = cs

theorem starts_of_on {r : Except Fault α} {k : Host} (hon : x.on h = (r, k)) (hframe : k.frame = h.frame)
    (hstarted : k.started = h.started ++ cs) : Starts x h cs where
  frame := by rw [hon, hframe]
  started := ⟨cs, List.prefix_refl _, by rw [hon, hstarted], fun _ _ => rfl⟩

theorem starts_pure (a : α) (h : Host) : Starts (pure a) h [] :=
  starts_of_on (on_pure a h) rfl (List.append_nil _).symm

theorem starts_fail (f : Fault) (h : Host) : Starts (fail f : Act α) h [] :=
  starts_of_on (on_fail f h) rfl (List.append_nil _).symm

theorem starts_get_bind {f : Host → Act α} (hf : Starts (f h) h cs) : Starts (get >>= f) h cs :=
  ⟨hf.frame, hf.started⟩

theorem Prints.starts {x : Act Unit} (hx : Prints x) (h : Host) : Starts x h [] := by
  obtain ⟨events, hprint, hon⟩ := hx h
  refine starts_of_on hon rfl ?_
  rw [Host.started_noting h hprint, List.append_nil]

/-- What comes after an act is started only if the act gives a value. -/
theorem Starts.bind {f : α → Act β} (hx : Starts x h cs)
    (hf : ∀ a h', x.on h = (.ok a, h') → Starts (f a) h' ds) : Starts (x >>= f) h (cs ++ ds) := by
  obtain ⟨hframe, done, hpre, hstarted, hall⟩ := hx
  rcases hon : x.on h with ⟨e | a, k⟩
  · rw [hon] at hframe hstarted
    -- a beginning of the first commands is one of all commands
    constructor
    · rw [on_bind_error hon]
      exact hframe
    · refine ⟨done, hpre.trans (List.prefix_append _ _), ?_, ?_⟩
      · rw [on_bind_error hon]
        exact hstarted
      · rw [on_bind_error hon]
        exact nofun
  · rw [hon] at hframe hstarted
    obtain rfl := hall a (by rw [hon])
    obtain ⟨hframe', more, hpre', hstarted', hall'⟩ := hf a k hon
    constructor
    · rw [on_bind_ok hon]
      exact hframe'.trans hframe
    · refine ⟨done ++ more, (List.prefix_append_right_inj _).2 hpre', ?_, ?_⟩
      · rw [on_bind_ok hon, hstarted', hstarted, List.append_assoc]
      · rw [on_bind_ok hon]
        exact fun b hb => by rw [hall' b hb]

theorem Starts.then {x : Act Unit} {y : Act β} (hx : Starts x h cs)
    (hy : ∀ h', x.on h = (.ok (), h') → Starts y h' ds) : Starts (do x; y) h (cs ++ ds) :=
  hx.bind fun _ h' hon => hy h' hon

theorem Prints.starts_then {x : Act Unit} {y : Act β} (hx : Prints x)
    (hy : ∀ events, Starts y (noting h events) cs) : Starts (do x; y) h cs := by
  refine (hx.starts h).then fun h' hon => ?_
  obtain ⟨events, -, hnoting⟩ := hx h
  rw [hnoting] at hon
  cases hon
  exact hy events

/-- What comes after printing comes of a host that differs in what was printed at most. -/
theorem Prints.on_then {x : Act Unit} (hx : Prints x) (y : Act β) (h : Host) : ∃ k,
    on (do x; y) h = y.on k ∧ k.bare = h.bare := by
  obtain ⟨events, -, hon⟩ := hx h
  exact ⟨noting h events, on_bind_ok hon, rfl⟩

theorem Starts.then_prints {x y : Act Unit} (hx : Starts x h cs) (hy : Prints y) : Starts (do x; y) h cs := by
  rw [← List.append_nil cs]
  exact hx.then fun h' _ => hy.starts h'

/-- Whether something ended with a fault of a kind. -/
def endsIn (kind : Fault → Bool) : Except Fault α → Bool
  | .ok _ => false
  | .error f => kind f

/-- A fault of a kind that is dealt with is followed by what dealing with it starts. -/
theorem Starts.recover {kind : Fault → Bool} {deal : Fault → Act α} (hframe : (x.on h).2.frame = h.frame)
    (hstarted : (x.on h).2.started = h.started ++ cs)
    (hdeal : ∀ f k, x.on h = (.error f, k) → kind f = true → Starts (deal f) k ds) :
    Starts (x.recover kind deal) h (cs ++ if endsIn kind (x.on h).1 then ds else []) := by
  rcases hon : x.on h with ⟨f | a, k⟩
  · rw [hon] at hframe hstarted
    -- all commands of the act have been started by then, though it has failed
    cases hkind : kind f with
    | false =>
      refine starts_of_on (on_recover_other hon hkind deal) hframe ?_
      rw [endsIn, hkind, hstarted]
      exact congrArg (h.started ++ ·) (List.append_nil cs).symm
    | true =>
      have hrecover : (x.recover kind deal).on h = (deal f).on k := by rw [on_recover_error hon, if_pos hkind]
      obtain ⟨hframe', done, hpre, hdone, hall⟩ := hdeal f k hon hkind
      rw [endsIn, hkind, if_pos rfl]
      constructor
      · rw [hrecover, hframe', hframe]
      · refine ⟨cs ++ done, (List.prefix_append_right_inj _).2 hpre, ?_, ?_⟩
        · rw [hrecover, hdone, hstarted, List.append_assoc]
        · rw [hrecover]
          exact fun a ha => by rw [hall a ha]
  · rw [hon] at hframe hstarted
    refine starts_of_on (on_recover_ok hon kind deal) hframe ?_
    exact hstarted.trans (congrArg (h.started ++ ·) (List.append_nil cs).symm)

/-! ## Acts that start commands of a kind only -/

section

variable {P : Command → Prop}

/-- All commands that an act starts are of a kind, however it ends. -/
def StartsOnly (P : Command → Prop) (x : Act α) : Prop :=
  ∀ h, ∃ cs, (∀ c ∈ cs, P c) ∧ (x.on h).2.started = h.started ++ cs

theorem startsOnly_pure (a : α) : StartsOnly P (pure a) := fun _ => ⟨[], nofun, (List.append_nil _).symm⟩

theorem startsOnly_fail (f : Fault) : StartsOnly P (fail f : Act α) := fun _ => ⟨[], nofun, (List.append_nil _).symm⟩

theorem startsOnly_ofExcept {ε : Type} (fault : ε → Fault) (x : Except ε α) : StartsOnly P (ofExcept fault x) := by
  cases x with
  | error e => exact startsOnly_fail (fault e)
  | ok a => exact startsOnly_pure a

theorem Prints.startsOnly {x : Act Unit} (hx : Prints x) : StartsOnly P x := by
  intro h
  obtain ⟨events, hprint, hon⟩ := hx h
  exact ⟨[], nofun, by rw [hon, Host.started_noting h hprint, List.append_nil]⟩

theorem startsOnly_start {c : Command} (hc : P c) : StartsOnly P c.start := by
  intro h
  refine ⟨[c], List.forall_mem_singleton.2 hc, ?_⟩
  rw [Command.on_start, Command.started_left]

theorem StartsOnly.bind {f : α → Act β} (hx : StartsOnly P x) (hf : ∀ a, StartsOnly P (f a)) :
    StartsOnly P (x >>= f) := by
  intro h
  obtain ⟨cs, hcs, hstarted⟩ := hx h
  rw [on_bind]
  rcases hon : x.on h with ⟨e | a, k⟩
  · rw [hon] at hstarted
    exact ⟨cs, hcs, hstarted⟩
  · rw [hon] at hstarted
    obtain ⟨ds, hds, hmore⟩ := hf a k
    exact ⟨cs ++ ds, List.forall_mem_append.2 ⟨hcs, hds⟩, by rw [hmore, hstarted, List.append_assoc]⟩

theorem startsOnly_get_bind {f : Host → Act α} (hf : ∀ h, StartsOnly P (f h)) : StartsOnly P (get >>= f) :=
  fun h => hf h h

theorem StartsOnly.ite {p : Prop} [Decidable p] {y : Act α} (hx : StartsOnly P x) (hy : StartsOnly P y) :
    StartsOnly P (if p then x else y) := by
  split
  · exact hx
  · exact hy

theorem StartsOnly.attempt (hx : StartsOnly P x) : StartsOnly P x.attempt := by
  intro h
  rw [on_attempt]
  exact hx h

theorem StartsOnly.recover {kind : Fault → Bool} {deal : Fault → Act α} (hx : StartsOnly P x)
    (hdeal : ∀ f, StartsOnly P (deal f)) : StartsOnly P (x.recover kind deal) := by
  intro h
  obtain ⟨cs, hcs, hstarted⟩ := hx h
  rcases hon : x.on h with ⟨f | a, k⟩
  · rw [hon] at hstarted
    rw [on_recover_error hon]
    split
    · obtain ⟨ds, hds, hmore⟩ := hdeal f k
      exact ⟨cs ++ ds, List.forall_mem_append.2 ⟨hcs, hds⟩, by rw [hmore, hstarted, List.append_assoc]⟩
    · exact ⟨cs, hcs, hstarted⟩
  · rw [hon] at hstarted
    rw [on_recover_ok hon]
    exact ⟨cs, hcs, hstarted⟩

theorem startsOnly_forM {f : α → Act Unit} (hf : ∀ a, StartsOnly P (f a)) : ∀ l : List α, StartsOnly P (l.forM f)
  | [] => startsOnly_pure ()
  | a :: l => (hf a).bind fun _ => startsOnly_forM hf l

end

end Act

end CiPipeline
