import CiPipeline.Console

/-
What comes of an act on a host: a value or a fault, and the host as it is left. Acts that only print
or record always give their value; what an act gives is followed here through sequences, loops and
folds whenever it is the same on every host, and so is what acts add to the journal.
-/

namespace CiPipeline

theorem exists_of_bind_eq_ok {ε α β : Type} {x : Except ε α} {f : α → Except ε β} {b : β} (h : x >>= f = .ok b) :
    ∃ a, x = .ok a ∧ f a = .ok b := by
  cases x with
  | error e => cases h
  | ok a => exact ⟨a, rfl, h⟩

namespace Act

variable {α β : Type}

/-- What comes of an act on a host, and how it leaves the host. -/
def on (x : Act α) (h : Host) : Except Fault α × Host := (ExceptT.run x).run h

@[simp] theorem on_pure (a : α) (h : Host) : on (pure a) h = (.ok a, h) := rfl

@[simp] theorem on_fail (f : Fault) (h : Host) : on (fail f : Act α) h = (.error f, h) := rfl

@[simp] theorem on_get (h : Host) : on get h = (.ok h, h) := rfl

theorem on_bind (x : Act α) (f : α → Act β) (h : Host) :
    on (x >>= f) h = match on x h with
      | (.ok a, h') => on (f a) h'
      | (.error e, h') => (.error e, h') := by
  unfold on
  rw [ExceptT.run_bind, StateT.run_bind]
  rcases (ExceptT.run x).run h with ⟨_ | a, h'⟩ <;> rfl

theorem on_tryCatch (x : Act α) (f : Fault → Act α) (h : Host) :
    on (tryCatch x f) h = match on x h with
      | (.ok a, h') => (.ok a, h')
      | (.error e, h') => on (f e) h' := by
  unfold on
  rw [ExceptT.run_tryCatch, StateT.run_bind]
  rcases (ExceptT.run x).run h with ⟨_ | a, h'⟩ <;> rfl

/-- An attempt never ends with a fault: it has what came of the act as its value. -/
theorem on_attempt (x : Act α) (h : Host) : on x.attempt h = (.ok (on x h).1, (on x h).2) := by
  unfold attempt
  rw [on_tryCatch, map_eq_pure_bind, on_bind]
  rcases on x h with ⟨_ | a, h'⟩ <;> rfl

theorem on_bind_ok {x : Act α} {f : α → Act β} {a : α} {h h' : Host} (hx : on x h = (.ok a, h')) :
    on (x >>= f) h = on (f a) h' := by
  rw [on_bind, hx]

theorem on_bind_error {x : Act α} {f : α → Act β} {e : Fault} {h h' : Host} (hx : on x h = (.error e, h')) :
    on (x >>= f) h = (.error e, h') := by
  rw [on_bind, hx]

theorem on_map (f : α → β) (x : Act α) (h : Host) : on (f <$> x) h = ((on x h).1.map f, (on x h).2) := by
  rw [map_eq_pure_bind, on_bind]
  rcases on x h with ⟨_ | a, h'⟩ <;> rfl

theorem on_discard (x : Act α) (h : Host) : on (discard x) h = ((on x h).1.map fun _ => (), (on x h).2) :=
  on_map _ x h

theorem on_ofExcept {ε : Type} (fault : ε → Fault) (x : Except ε α) (h : Host) :
    on (ofExcept fault x) h = (x.mapError fault, h) := by
  cases x <;> rfl

theorem on_ofExcept_id (x : Except Fault α) (h : Host) : on (ofExcept id x) h = (x, h) := by
  cases x <;> rfl

/-- Acts that leave the host as it is give what their results come to. -/
theorem on_bind_same {x : Act α} {f : α → Act β} {h : Host} {r : Except Fault α} {q : α → Except Fault β}
    (hx : on x h = (r, h)) (hf : ∀ a, on (f a) h = (q a, h)) : on (x >>= f) h = (r >>= q, h) := by
  cases r with
  | error e => exact on_bind_error hx
  | ok a => exact (on_bind_ok hx).trans (hf a)

theorem on_recover_ok {x : Act α} {a : α} {h h' : Host} (hx : on x h = (.ok a, h')) (kind : Fault → Bool)
    (deal : Fault → Act α) : on (x.recover kind deal) h = (.ok a, h') := by
  rw [recover, on_tryCatch, hx]

theorem on_recover_error {x : Act α} {f : Fault} {h h' : Host} (hx : on x h = (.error f, h')) (kind : Fault → Bool)
    (deal : Fault → Act α) : on (x.recover kind deal) h = if kind f then on (deal f) h' else (.error f, h') := by
  rw [recover, on_tryCatch, hx]
  simp only
  split
  · rfl
  · rfl

theorem on_recover_other {x : Act α} {f : Fault} {h h' : Host} (hx : on x h = (.error f, h')) {kind : Fault → Bool}
    (hkind : kind f = false) (deal : Fault → Act α) : on (x.recover kind deal) h = (.error f, h') := by
  rw [on_recover_error hx, if_neg (by rw [hkind]; exact Bool.false_ne_true)]

/-! ## Acts one after another -/

theorem on_then (x : Act Unit) (y : Act β) (h : Host) :
    on (do x; y) h = match on x h with
      | (.ok (), k) => on y k
      | (.error e, k) => (.error e, k) := by
  rw [on_bind]
  rcases on x h with ⟨_ | _, k⟩ <;> rfl

theorem on_forM_append (f : α → Act Unit) (l m : List α) (h : Host) :
    on ((l ++ m).forM f) h = match on (l.forM f) h with
      | (.ok (), k) => on (m.forM f) k
      | (.error e, k) => (.error e, k) :=
  (congrArg (on · h) List.forM_append).trans (on_then (l.forM f) (m.forM f) h)

/-- Acts one after another end with a fault exactly if one of them does after those before it were completed. -/
theorem on_forM_eq_error {f : α → Act Unit} {e : Fault} {k : Host} : ∀ {l : List α} {h : Host},
    on (l.forM f) h = (.error e, k) ↔ ∃ before a after s, l = before ++ a :: after ∧
      on (before.forM f) h = (.ok (), s) ∧ on (f a) s = (.error e, k)
  | [], h => by
    constructor
    · intro hon
      cases hon
    · rintro ⟨before, a, after, s, hl, -⟩
      simp at hl
  | a :: l, h => by
    constructor
    · intro hon
      -- it is the first act that fails, or one after it
      rcases hfirst : on (f a) h with ⟨e' | ⟨⟩, k'⟩
      · cases (on_bind_error hfirst).symm.trans hon
        exact ⟨[], a, l, h, rfl, rfl, hfirst⟩
      · obtain ⟨before, b, after, s, rfl, hdone, hfail⟩ := on_forM_eq_error.1 ((on_bind_ok hfirst).symm.trans hon)
        exact ⟨a :: before, b, after, s, rfl, (on_bind_ok hfirst).trans hdone, hfail⟩
    · rintro ⟨before, b, after, s, hl, hdone, hfail⟩
      rw [hl, on_forM_append, hdone]
      exact on_bind_error hfail

/-! ## Acts that give the same on every host -/

/-- What an act gives does not depend on the host. -/
def Gives (x : Act α) (r : Except Fault α) : Prop := ∀ h, (on x h).1 = r

theorem Gives.on_eq {x : Act α} {r : Except Fault α} (hx : Gives x r) (h : Host) : ∃ h', on x h = (r, h') :=
  ⟨(on x h).2, by rw [← hx h]⟩

theorem gives_pure (a : α) : Gives (pure a) (.ok a) := fun _ => rfl

theorem gives_fail (f : Fault) : Gives (fail f : Act α) (.error f) := fun _ => rfl

theorem gives_record (e : Event) : Gives (record e) (.ok ()) := fun _ => rfl

theorem Gives.bind {x : Act α} {f : α → Act β} {r : Except Fault α} {q : α → Except Fault β} (hx : Gives x r)
    (hf : ∀ a, r = .ok a → Gives (f a) (q a)) : Gives (x >>= f) (r >>= q) := by
  intro h
  obtain rfl := hx h
  rw [on_bind]
  rcases hon : on x h with ⟨e | a, h'⟩
  · rfl
  · exact hf a (by rw [hon]) h'

theorem Gives.then {x : Act Unit} {y : Act β} {r : Except Fault β} (hx : Gives x (.ok ())) (hy : Gives y r) :
    Gives (do x; y) r :=
  hx.bind fun _ _ => hy

theorem Gives.ite {p : Prop} [Decidable p] {x y : Act α} {r : Except Fault α} (hx : Gives x r) (hy : Gives y r) :
    Gives (if p then x else y) r := by
  split
  · exact hx
  · exact hy

theorem gives_forM {f : α → Act Unit} (hf : ∀ a, Gives (f a) (.ok ())) : ∀ l : List α, Gives (l.forM f) (.ok ())
  | [] => gives_pure ()
  | a :: l => (hf a).then (gives_forM hf l)

theorem gives_foldlM {f : β → α → Act β} {q : β → α → Except Fault β} :
    ∀ (l : List α) (b : β), (∀ b, ∀ a ∈ l, Gives (f b a) (q b a)) → Gives (l.foldlM f b) (l.foldlM q b)
  | [], b, _ => gives_pure b
  | a :: l, b, hf => by
    rw [List.foldlM_cons, List.foldlM_cons]
    exact (hf b a (List.mem_cons_self ..)).bind fun b' _ =>
      gives_foldlM l b' fun b'' a' ha => hf b'' a' (List.mem_cons_of_mem _ ha)

/-! ## Acts that leave a part of the host as it is -/

section

variable {γ : Type} {part : Host → γ}

/-- An act leaves a part of the host as it is, whether it ends with a value or with a fault. -/
def Keeps (part : Host → γ) (x : Act α) : Prop := ∀ h, part (on x h).2 = part h

theorem keeps_pure (a : α) : Keeps part (pure a) := fun _ => rfl

theorem keeps_fail (f : Fault) : Keeps part (fail f : Act α) := fun _ => rfl

theorem keeps_ofExcept {ε : Type} (fault : ε → Fault) (x : Except ε α) : Keeps part (ofExcept fault x) := by
  intro h
  rw [on_ofExcept]

theorem Keeps.bind {x : Act α} {f : α → Act β} (hx : Keeps part x) (hf : ∀ a, Keeps part (f a)) :
    Keeps part (x >>= f) := by
  intro h
  have hpart := hx h
  rw [on_bind]
  rcases hon : on x h with ⟨e | a, h'⟩
  · rw [hon] at hpart
    exact hpart
  · rw [hon] at hpart
    exact (hf a h').trans hpart

theorem Keeps.ite {p : Prop} [Decidable p] {x y : Act α} (hx : Keeps part x) (hy : Keeps part y) :
    Keeps part (if p then x else y) := by
  split
  · exact hx
  · exact hy

theorem keeps_get_bind {f : Host → Act α} (hf : ∀ h, Keeps part (f h)) : Keeps part (get >>= f) := fun h => hf h h

theorem Keeps.recover {x : Act α} {kind : Fault → Bool} {deal : Fault → Act α} (hx : Keeps part x)
    (hdeal : ∀ f, Keeps part (deal f)) : Keeps part (x.recover kind deal) := by
  intro h
  have hpart := hx h
  rcases hon : on x h with ⟨f | a, k⟩
  · rw [hon] at hpart
    rw [on_recover_error hon]
    split
    · exact (hdeal f k).trans hpart
    · exact hpart
  · rw [hon] at hpart
    rw [on_recover_ok hon]
    exact hpart

theorem Keeps.attempt {x : Act α} (hx : Keeps part x) : Keeps part x.attempt := by
  intro h
  rw [on_attempt]
  exact hx h

theorem keeps_forM {f : α → Act Unit} (hf : ∀ a, Keeps part (f a)) : ∀ l : List α, Keeps part (l.forM f)
  | [] => keeps_pure ()
  | a :: l => (hf a).bind fun _ => keeps_forM hf l

theorem keeps_foldlM {f : β → α → Act β} (hf : ∀ b a, Keeps part (f b a)) :
    ∀ (l : List α) (b : β), Keeps part (l.foldlM f b)
  | [], b => keeps_pure b
  | a :: l, b => by
    rw [List.foldlM_cons]
    exact (hf b a).bind fun b' => keeps_foldlM hf l b'

end

/-! ## Printing -/

/-- The host with more in its journal. -/
def noting (h : Host) (events : List Event) : Host := { h with journal := h.journal ++ events }

@[simp] theorem noting_nil (h : Host) : noting h [] = h := by rw [noting, List.append_nil]

theorem noting_noting (h : Host) (events more : List Event) :
    noting (noting h events) more = noting h (events ++ more) := by
  rw [noting, noting, noting, List.append_assoc]

/-- An event in which something is printed. -/
def IsPrint : Event → Prop
  | .out _ | .err _ => True
  | _ => False

/-- An act only prints: it changes nothing but the journal, and always ends without a fault. -/
def Prints (x : Act Unit) : Prop := ∀ h, ∃ events, (∀ e ∈ events, IsPrint e) ∧ on x h = (.ok (), noting h events)

theorem Prints.gives {x : Act Unit} (hx : Prints x) : Gives x (.ok ()) := by
  intro h
  obtain ⟨events, -, hon⟩ := hx h
  rw [hon]

theorem prints_pure : Prints (pure ()) := by
  intro h
  exact ⟨[], nofun, by rw [noting_nil, on_pure]⟩

theorem prints_record {e : Event} (he : IsPrint e) : Prints (record e) :=
  fun _ => ⟨[e], by simpa using he, rfl⟩

theorem Prints.then {x y : Act Unit} (hx : Prints x) (hy : Prints y) : Prints (do x; y) := by
  intro h
  obtain ⟨events, hevents, hon⟩ := hx h
  obtain ⟨more, hmore, hon'⟩ := hy (noting h events)
  refine ⟨events ++ more, fun e he => (List.mem_append.1 he).elim (hevents e) (hmore e), ?_⟩
  rw [on_bind_ok hon, hon', noting_noting]

theorem Prints.ite {p : Prop} [Decidable p] {x y : Act Unit} (hx : Prints x) (hy : Prints y) :
    Prints (if p then x else y) := by
  split
  · exact hx
  · exact hy

theorem prints_get_bind {f : Host → Act Unit} (hf : ∀ h, Prints (f h)) : Prints (get >>= f) := fun h => hf h h

theorem prints_forM {f : α → Act Unit} (hf : ∀ a, Prints (f a)) : ∀ l : List α, Prints (l.forM f)
  | [] => prints_pure
  | a :: l => (hf a).then (prints_forM hf l)

theorem on_plain (line : String) (h : Host) :
    on (Console.plain line) h = (.ok (), noting h [.out (h.display.shown line)]) := rfl

theorem prints_plain (line : String) : Prints (Console.plain line) := prints_get_bind fun _ => prints_record trivial

theorem prints_aside (line : String) : Prints (Console.aside line) := prints_get_bind fun _ => prints_record trivial

theorem prints_info (message : String) : Prints (Console.info message) := prints_plain _

theorem prints_success (message : String) : Prints (Console.success message) := prints_plain _

theorem prints_warning (message : String) : Prints (Console.warning message) := prints_aside _

theorem prints_debug (message : String) : Prints (Console.debug message) :=
  prints_get_bind fun _ => .ite (prints_aside _) prints_pure

theorem prints_error (title message : String) (details : List String) (suggestion : String) :
    Prints (Console.error title message details suggestion) := by
  have hrest : Prints (do
      details.forM fun d => Console.aside ("  " ++ d)
      if suggestion ≠ "" then Console.aside ("\n" ++ suggestion)) :=
    (prints_forM (fun _ => prints_aside _) details).then (.ite (prints_aside _) prints_pure)
  exact (prints_aside _).then (.ite ((prints_aside _).then hrest) hrest)

theorem prints_jobFailed (name reason : String) (hint : Option Value) :
    Prints (Console.jobFailed name reason hint) := by
  unfold Console.jobFailed
  refine (prints_aside _).then (prints_get_bind fun h => ?_)
  rcases hint.filter Value.isGiven with _ | v
  · exact .ite ((prints_aside _).then prints_pure) ((prints_aside _).then prints_pure)
  · exact .ite ((prints_aside _).then (prints_aside _)) ((prints_aside _).then (prints_aside _))

theorem gives_plain (line : String) : Gives (Console.plain line) (.ok ()) := (prints_plain line).gives

theorem gives_jobFailed (name reason : String) (hint : Option Value) :
    Gives (Console.jobFailed name reason hint) (.ok ()) :=
  (prints_jobFailed name reason hint).gives

/-! ## Acts that only add to the journal -/

section

variable {events more : Display → List Event}

/-- An act gives a value and changes nothing but the journal; what it adds there depends on the display only. -/
def Notes (x : Act α) (a : α) (events : Display → List Event) : Prop :=
  ∀ h, on x h = (.ok a, noting h (events h.display))

theorem notes_pure (a : α) : Notes (pure a) a fun _ => [] := by
  intro h
  rw [noting_nil, on_pure]

theorem notes_record (e : Event) : Notes (record e) () fun _ => [e] := fun _ => rfl

theorem notes_plain (line : String) : Notes (Console.plain line) () fun d => [.out (d.shown line)] := fun _ => rfl

theorem Notes.bind {x : Act α} {f : α → Act β} {a : α} {b : β} (hx : Notes x a events) (hf : Notes (f a) b more) :
    Notes (x >>= f) b fun d => events d ++ more d := by
  intro h
  rw [on_bind_ok (hx h), hf, noting_noting]
  rfl

theorem Notes.congr {x : Act α} {a : α} (hx : Notes x a events) (h : ∀ d, events d = more d) : Notes x a more :=
  funext h ▸ hx

theorem Notes.attempt {x : Act α} {a : α} (hx : Notes x a events) : Notes x.attempt (.ok a) events := by
  intro h
  rw [on_attempt, hx h]

theorem notes_forM {f : α → Act Unit} {events : α → Display → List Event} (hf : ∀ a, Notes (f a) () (events a)) :
    ∀ l : List α, Notes (l.forM f) () fun d => l.flatMap (events · d)
  | [] => notes_pure ()
  | a :: l => (hf a).bind (notes_forM hf l)

theorem notes_mapM {f : α → Act β} {g : α → β} {events : α → Display → List Event}
    (hf : ∀ a, Notes (f a) (g a) (events a)) :
    ∀ l : List α, Notes (l.mapM f) (l.map g) fun d => l.flatMap (events · d)
  | [] => notes_pure []
  | a :: l => by
    intro h
    rw [List.mapM_cons, on_bind_ok (hf a h), on_bind_ok (notes_mapM hf l _), on_pure, noting_noting]
    rfl

theorem notes_foldlM {f : β → α → Act β} {g : β → α → β} {events : α → Display → List Event}
    (hf : ∀ b a, Notes (f b a) (g b a) (events a)) :
    ∀ (l : List α) (b : β), Notes (l.foldlM f b) (l.foldl g b) fun d => l.flatMap (events · d)
  | [], b => notes_pure b
  | a :: l, b => by
    rw [List.foldlM_cons]
    exact (hf b a).bind (notes_foldlM hf l (g b a))

end

end Act

end CiPipeline
