import Stencil.Proofs.Lookup.Chain
import Stencil.Proofs.Lookup.Resolved

/-!
# Sessions

A session is what is done to a chain of frames over time: frames are pushed and
popped, and any frame of the chain is asked for names. What the frames remember
cannot be told from the replies if getters, accessors and formatters have no effects; and
whatever they do, a frame that was asked for a name once runs nothing when it is
asked for it again. Frames are told apart by the order in which they were pushed,
so a frame keeps its number, like its memo, while frames inside of it come and go.
-/

set_option autoImplicit false

namespace Stencil

variable {σ : Type}

structure Session (σ : Type) where
  context : Context
  /-- The numbers of its frames, the innermost first. -/
  numbers : List Nat
  /-- How many frames there were so far. -/
  made : Nat
  host : σ

namespace Session

inductive Op
  | push (v : Value)
  | pop
  /-- Asks the frame `up` frames out. -/
  | ask (up : Nat) (q : Query)

/-- A query to a frame, with the chain out from there and the state of the host at
the time it was asked. -/
structure Event (σ : Type) where
  frame : Nat
  context : Context
  host : σ
  query : Query
  reply : Reply

def start (v : Value) (s : σ) : Session σ := ⟨.root v, [0], 1, s⟩

/-- The session after an operation. The root is not popped, and a frame that is not
there is not asked. -/
def next (env : Env σ) (x : Session σ) : Op → Session σ
  | .push v =>
    { x with context := x.context.push v, numbers := x.made :: x.numbers, made := x.made + 1 }
  | .pop => match x.context.pop? with
    | none => x
    | some c => { x with context := c, numbers := x.numbers.tail }
  | .ask up q => match x.context.out? up with
    | none => x
    | some p =>
      { x with
        context := x.context.put up (p.ask env q x.host).2.1, host := (p.ask env q x.host).2.2 }

def event? (env : Env σ) (x : Session σ) : Op → Option (Event σ)
  | .push _ | .pop => none
  | .ask up q => (x.context.out? up).map fun p =>
    ⟨x.numbers.getD up 0, p, x.host, q, (p.ask env q x.host).1⟩

def events (env : Env σ) : Session σ → List Op → List (Event σ)
  | _, [] => []
  | x, op :: ops => (x.event? env op).toList ++ events env (x.next env op) ops

def asked : (chain : List Value) → List Op → List (Scope × Query)
  | _, [] => []
  | chain, .push v :: ops => asked (v :: chain) ops
  | _ :: v :: outer, .pop :: ops => asked (v :: outer) ops
  | chain, .pop :: ops => asked chain ops
  | chain, .ask up q :: ops =>
    match chain.drop up with
    | [] => asked chain ops
    | v :: outer => (⟨v, outer⟩, q) :: asked chain ops

inductive Step (env : Env σ) (x : Session σ) : Op → Option (Event σ) → Session σ → Prop
  | push (v : Value) : Step env x (.push v) none
      ⟨x.context.push v, x.made :: x.numbers, x.made + 1, x.host⟩
  | pop {c : Context} : x.context.frames = x.context.current :: c.frames →
      Step env x .pop none ⟨c, x.numbers.tail, x.made, x.host⟩
  | root : x.context.frames = [x.context.current] → Step env x .pop none x
  | ask {up : Nat} {q : Query} {p c : Context} : x.context.out? up = some p →
      c.frames = x.context.frames.set up (p.ask env q x.host).2.1.current →
      Step env x (.ask up q)
        (some ⟨x.numbers.getD up 0, p, x.host, q, (p.ask env q x.host).1⟩)
        ⟨c, x.numbers, x.made, (p.ask env q x.host).2.2⟩
  | absent {up : Nat} {q : Query} : x.context.frames.drop up = [] →
      Step env x (.ask up q) none x

theorem step_next (env : Env σ) (x : Session σ) (op : Op) :
    Step env x op (x.event? env op) (x.next env op) := by
  cases op with
  | push v => exact .push v
  | pop =>
    rw [next]
    split
    · next hc => exact .root (Context.pop_none hc)
    · next c hc => exact .pop (Context.pop_frames hc)
  | ask up q =>
    rw [next, event?]
    split
    · next hp =>
      rw [hp]
      exact .absent (Context.out_none hp)
    · next p hp =>
      rw [hp]
      exact .ask hp (Context.put_frames hp (p.ask_answered env q x.host).parents)

/-! ## What is run for a query -/

inductive Call
  | getter (id : Nat) (receiver : Value)
  | get (id : Nat) (key : String)

def logged (log : List Call) : Handling σ → Handling (σ × List Call)
  | .answer v s => .answer v (s, log)
  | .render text s resume => .render text (s, log) fun out t => logged t.2 (resume out t.1)

def loggedHost (h : Host σ) : Host (σ × List Call) where
  getter id v s := ((h.getter id v s.1).1, (h.getter id v s.1).2, s.2 ++ [.getter id v])
  lambda id body s := logged s.2 (h.lambda id body s.1)
  get id key s := ((h.get id key s.1).1, (h.get id key s.1).2, s.2 ++ [.get id key])
  registry := h.registry
  format id v args s := ((h.format id v args s.1).1, (h.format id v args s.1).2, s.2)

theorem run_logged (h : Host σ) (fs : Formatters) (steps : List Stencil.Step) (v : Value)
    (s : σ × List Call) : ((loggedHost h).run fs steps v s).2.2 = s.2 := by
  induction steps generalizing v s with
  | nil => rfl
  | cons step steps ih =>
    show ((loggedHost h).run fs steps _ ((loggedHost h).apply fs step.name v step.args s).2).2.2 = _
    rw [ih, Host.apply]
    cases fs.get? step.name with
    | none => rfl
    | some r => cases r <;> rfl

namespace Event

def calls (env : Env σ) (e : Event σ) : List Call :=
  (e.context.ask ⟨loggedHost env.host, env.formatters⟩ e.query (e.host, [])).2.2.2

/-- The reply is made of `r`, whatever a host would do: no value with behaviour is
asked for anything, and the frame stays as it is. -/
def Recalls (e : Event σ) (r : Option Value) : Prop :=
  ∀ (τ : Type) (env : Env τ) (t : τ), e.context.ask env e.query t =
    (fun o : Reply × τ => (o.1, e.context, o.2)) (e.query.reply env r t)

theorem Recalls.calls_nil {e : Event σ} {r : Option Value} (h : e.Recalls r) (env : Env σ) :
    e.calls env = [] := by
  rw [calls, h]
  cases e.query with
  | resolve name => rfl
  | lookup key =>
    show (Key.valued _ key r (e.host, [])).2.2 = []
    rw [Key.valued]
    split
    · exact run_logged env.host env.formatters _ _ (e.host, [])
    · rfl

end Event

/-! ## What is kept -/

structure Sound (x : Session σ) : Prop where
  aligned : x.numbers.length = x.context.frames.length
  distinct : x.numbers.Nodup
  given : ∀ n ∈ x.numbers, n < x.made

structure Keeps (x : Session σ) (n : Nat) (name : String) (r : Option Value) : Prop where
  given : n < x.made
  memo : ∀ (i : Nat) (f : Frame), x.numbers[i]? = some n → x.context.frames[i]? = some f →
    f.memo.lookup name = some r

theorem start_sound (v : Value) (s : σ) : (start v s).Sound where
  aligned := rfl
  distinct := List.nodup_cons.2 ⟨List.not_mem_nil, .nil⟩
  given := by
    intro n hn
    rw [List.mem_singleton.1 hn]
    exact Nat.one_pos

section Operations

variable {env : Env σ} {x y : Session σ} {op : Op} {e : Event σ}

theorem Sound.number (h : x.Sound) {up : Nat} {p : Context} (hp : x.context.out? up = some p) :
    x.numbers[up]? = some (x.numbers.getD up 0) := by
  have hlt : up < x.numbers.length := by
    rw [h.aligned]
    exact (List.getElem?_eq_some_iff.1 (Context.out_current hp)).1
  rw [List.getD_eq_getElem?_getD, List.getElem?_eq_getElem hlt]
  rfl

theorem Sound.next (h : x.Sound) {e? : Option (Event σ)} (hs : Step env x op e? y) : y.Sound := by
  cases hs with
  | push v =>
    refine ⟨congrArg Nat.succ h.aligned, List.nodup_cons.2 ⟨fun hn => ?_, h.distinct⟩, ?_⟩
    · exact Nat.lt_irrefl _ (h.given _ hn)
    · intro n hn
      rcases List.mem_cons.1 hn with rfl | hn
      · exact Nat.lt_succ_self _
      · exact Nat.lt_succ_of_lt (h.given n hn)
  | pop hc =>
    refine ⟨?_, h.distinct.sublist (List.tail_sublist _), fun n hn =>
      h.given n (List.mem_of_mem_tail hn)⟩
    rw [List.length_tail, h.aligned, hc]
    rfl
  | ask _ hc => exact ⟨by rw [hc, List.length_set, h.aligned], h.distinct, h.given⟩
  | root | absent => exact h

theorem Keeps.next {n : Nat} {name : String} {r : Option Value} (h : x.Keeps n name r)
    {e? : Option (Event σ)} (hs : Step env x op e? y) : y.Keeps n name r := by
  cases hs with
  | push v =>
    refine ⟨Nat.lt_succ_of_lt h.given, fun i f hi hf => ?_⟩
    cases i with
    | zero =>
      exact absurd (Option.some.inj hi) (Nat.ne_of_gt h.given)
    | succ i => exact h.memo i f hi hf
  | pop hc =>
    refine ⟨h.given, fun i f hi hf => h.memo (i + 1) f ?_ ?_⟩
    · rw [← List.getElem?_tail]
      exact hi
    · rw [hc]
      exact hf
  | @ask up q p c hp hc =>
    refine ⟨h.given, fun i f hi hf => ?_⟩
    have hcur := Context.out_current hp
    rw [hc] at hf
    by_cases hu : up = i
    · subst hu
      rw [List.getElem?_set_self (List.getElem?_eq_some_iff.1 hcur).1] at hf
      cases hf
      exact (p.ask_answered env q x.host).kept name r (h.memo up p.current hi hcur)
    · rw [List.getElem?_set_ne hu] at hf
      exact h.memo i f hi hf
  | root | absent => exact h

theorem Sound.keeps (h : x.Sound) (hs : Step env x op (some e) y) :
    ∃ r t, y.Keeps e.frame e.query.name r ∧ e.reply = (e.query.reply env r t).1 := by
  cases hs with
  | @ask up q p c hp hc =>
    obtain ⟨r, t, hr, hq⟩ := (p.ask_answered env q x.host).replied
    have hn := h.number hp
    refine ⟨r, t, ⟨h.given _ (List.mem_of_getElem? hn), fun i f hi hf => ?_⟩, hq⟩
    have hlt := (List.getElem?_eq_some_iff.1 hn).1
    obtain rfl : up = i := (List.getElem?_inj hlt h.distinct).1 (hn.trans hi.symm)
    rw [hc, List.getElem?_set_self (by rw [← h.aligned]; exact hlt)] at hf
    cases hf
    exact hr

/-- A frame that remembers a name runs nothing when it is asked for it. -/
theorem Sound.recalls (h : x.Sound) (hs : Step env x op (some e) y) {r : Option Value}
    (hk : x.Keeps e.frame e.query.name r) :
    e.Recalls r ∧ e.reply = (e.query.reply env r e.host).1 := by
  cases hs with
  | @ask up q p c hp hc =>
    have hm := hk.memo up p.current (h.number hp) (Context.out_current hp)
    exact ⟨fun τ env t => Context.ask_hit env hm t, by rw [Context.ask_hit env hm]⟩

end Operations

/-! ## What a run asks -/

theorem set_values {fs : List Frame} {f g : Frame} {i : Nat} (h : fs[i]? = some g)
    (hv : f.value = g.value) : (fs.set i f).map Frame.value = fs.map Frame.value := by
  obtain ⟨hlt, rfl⟩ := List.getElem?_eq_some_iff.1 h
  have hlt' : i < (fs.map Frame.value).length := by rwa [List.length_map]
  rw [List.map_set, hv, ← List.getElem_map Frame.value (h := hlt'), List.set_getElem_self]

/-- A run asks what its operations say, in the frames that were pushed and not popped. -/
theorem events_asked (env : Env σ) (x : Session σ) (ops : List Op) :
    (x.events env ops).map (fun e => (e.context.scope, e.query)) =
      asked (x.context.frames.map Frame.value) ops := by
  induction ops generalizing x with
  | nil => rfl
  | cons op ops ih =>
    rw [events, List.map_append, ih]
    have hs := step_next env x op
    generalize x.event? env op = e?, x.next env op = y at hs ⊢
    cases hs with
    | push v => rfl
    | pop hc | root hc =>
      rw [hc]
      rfl
    | @ask up q p c hp hc =>
      have hv := (p.ask_answered env q x.host).value
      rw [asked, ← List.map_drop, Context.out_drop hp]
      dsimp only
      rw [hc, set_values (Context.out_current hp) hv]
      rfl
    | absent hd =>
      rw [asked, ← List.map_drop, hd]
      rfl

/-! ## Memos of a steady host -/

def Faithful (env : Env σ) (s : σ) : List Frame → Prop
  | [] => True
  | f :: fs =>
    (∀ name r, f.memo.lookup name = some r →
      r = (Scope.resolveAfresh env ⟨f.value, fs.map Frame.value⟩ name.toList s).1) ∧
    Faithful env s fs

theorem Faithful.drop {env : Env σ} {s : σ} {fs : List Frame} (h : Faithful env s fs) (n : Nat) :
    Faithful env s (fs.drop n) := by
  induction n generalizing fs with
  | zero => exact h
  | succ n ih =>
    cases fs with
    | nil => exact h
    | cons f fs => exact ih h.2

theorem Faithful.push {env : Env σ} {s : σ} {fs : List Frame} (h : Faithful env s fs) (v : Value) :
    Faithful env s (⟨v, []⟩ :: fs) :=
  ⟨fun _ _ hr => (by cases hr), h⟩

/-- One frame may remember more, as long as it is faithful with those around it. -/
theorem Faithful.set {env : Env σ} {s : σ} {fs : List Frame} (h : Faithful env s fs) {up : Nat}
    {p d : Context} (hp : fs.drop up = p.frames) (hv : d.current.value = p.current.value)
    (ho : d.parents = p.parents) (hd : Faithful env s d.frames) :
    Faithful env s (fs.set up d.current) := by
  induction up generalizing fs with
  | zero =>
    obtain rfl : fs = p.frames := hp
    show Faithful env s (d.current :: p.parents)
    rw [← ho]
    exact hd
  | succ up ih =>
    cases fs with
    | nil => cases hp
    | cons f fs =>
      refine ⟨?_, ih h.2 hp⟩
      have hc : fs[up]? = some p.current := by
        have hd : fs.drop up = p.frames := hp
        rw [← List.head?_drop, hd]
        rfl
      rw [set_values hc hv]
      exact h.1

section Steady

variable {env : Env σ} (hs : env.host.Steady)
include hs

theorem reply_still (q : Query) (r : Option Value) : Still (q.reply env r) := by
  cases q with
  | resolve name => exact .pure _
  | lookup key =>
    refine .bind ?_ fun _ => .pure _
    unfold Key.valued
    split
    · exact run_still hs _ _ _
    · exact .pure _

theorem ask_faithful {c : Context} {s : σ} (h : Faithful env s c.frames) (q : Query) :
    Faithful env s (c.ask env q s).2.1.frames ∧ (c.ask env q s).2.2 = s ∧
      (c.ask env q s).1 =
        (q.reply env (c.scope.resolveAfresh env q.name.toList s).1 s).1 := by
  cases hm : c.current.memo.lookup q.name with
  | some r =>
    rw [Context.ask_hit env hm]
    refine ⟨h, reply_still hs q r s, ?_⟩
    rw [h.1 q.name r hm]
    rfl
  | none =>
    obtain ⟨found, hfound⟩ : ∃ found, c.scope.resolveAfresh env q.name.toList s = (found, s) :=
      ⟨_, Prod.ext rfl (resolveAfresh_still hs _ _ s)⟩
    rw [Context.ask_miss env hm, hfound]
    refine ⟨⟨fun name r hr => ?_, h.2⟩, reply_still hs q _ s, rfl⟩
    change List.lookup name (_ :: _) = some r at hr
    rw [List.lookup_cons] at hr
    split at hr
    · next hb =>
      obtain rfl : name = q.name := by simpa using hb
      have hvalue : found = (c.scope.resolveAfresh env q.name.toList s).1 := by rw [hfound]
      exact (Option.some.inj hr).symm.trans hvalue
    · exact h.1 name r hr

/-- Every operation leaves faithful memos behind, and the host in its state. -/
theorem next_faithful {x y : Session σ} (h : Faithful env x.host x.context.frames) {op : Op}
    {e? : Option (Event σ)} (hstep : Step env x op e? y) :
    Faithful env x.host y.context.frames ∧ y.host = x.host := by
  cases hstep with
  | push v => exact ⟨h.push v, rfl⟩
  | pop hc =>
    rw [hc] at h
    exact ⟨h.2, rfl⟩
  | @ask up q p c hp hc =>
    have hd := Context.out_drop hp
    have ha := p.ask_answered env q x.host
    obtain ⟨hf, hh, -⟩ := ask_faithful hs (hd ▸ h.drop up) q
    rw [hc]
    exact ⟨h.set hd ha.value ha.parents hf, hh⟩
  | root | absent => exact ⟨h, rfl⟩

theorem event_faithful {x y : Session σ} (h : Faithful env x.host x.context.frames) {op : Op}
    {e : Event σ} (hstep : Step env x op (some e) y) :
    e.reply = (e.query.reply env
      (e.context.scope.resolveAfresh env e.query.name.toList x.host).1 x.host).1 := by
  cases hstep with
  | @ask up q p c hp hc => exact (ask_faithful hs (Context.out_drop hp ▸ h.drop up) q).2.2

theorem events_faithful {x : Session σ} (h : Faithful env x.host x.context.frames)
    (ops : List Op) : ∀ e ∈ x.events env ops,
      e.reply = (e.query.reply env
        (e.context.scope.resolveAfresh env e.query.name.toList x.host).1 x.host).1 := by
  induction ops generalizing x with
  | nil => exact fun e he => absurd he List.not_mem_nil
  | cons op ops ih =>
    intro e he
    have hstep := step_next env x op
    rcases List.mem_append.1 he with he | he
    · rw [Option.mem_toList.1 he] at hstep
      exact event_faithful hs h hstep
    · obtain ⟨hf, hh⟩ := next_faithful hs h hstep
      rw [← hh] at hf ⊢
      exact ih hf e he

end Steady

/-! ## Runs of any host -/

section Runs

variable {env : Env σ} {x : Session σ}

theorem events_recall (h : x.Sound) {n : Nat} {name : String} {r : Option Value}
    (hk : x.Keeps n name r) (ops : List Op) : ∀ e ∈ x.events env ops,
      e.frame = n → e.query.name = name →
        e.Recalls r ∧ e.reply = (e.query.reply env r e.host).1 := by
  induction ops generalizing x with
  | nil => exact fun e he => absurd he List.not_mem_nil
  | cons op ops ih =>
    intro e he
    have hs := step_next env x op
    rcases List.mem_append.1 he with he | he
    · rintro rfl rfl
      rw [Option.mem_toList.1 he] at hs
      exact h.recalls hs hk
    · exact ih (h.next hs) (hk.next hs) e he

theorem events_once (h : x.Sound) (ops : List Op) :
    (x.events env ops).Pairwise fun e e' => e.frame = e'.frame → e.query.name = e'.query.name →
      ∃ r, (∃ t, e.reply = (e.query.reply env r t).1) ∧
        e'.reply = (e'.query.reply env r e'.host).1 ∧ e'.Recalls r := by
  induction ops generalizing x with
  | nil => exact .nil
  | cons op ops ih =>
    have hs := step_next env x op
    have hrest := ih (h.next hs)
    rw [events]
    cases he : x.event? env op with
    | none => exact hrest
    | some e =>
      rw [he] at hs
      refine List.pairwise_cons.2 ⟨fun e' he' hn hq => ?_, hrest⟩
      -- from here on the frame keeps the name, so the rest of the run recalls it
      obtain ⟨r, t, hk, hr⟩ := h.keeps hs
      obtain ⟨hc, hr'⟩ := events_recall (h.next hs) hk ops e' he' hn.symm hq.symm
      exact ⟨r, ⟨t, hr⟩, hr', hc⟩

end Runs

/-- What frames remember cannot be seen, and nothing is resolved twice. Whatever is
done to a chain that starts with `v`, what it is asked is asked in the frames as they
were pushed. If getters, accessors and formatters have no effects, every reply is made
of the one thing that the name resolves to by the rules. And whatever they do, when a
frame is asked for a name again, under whichever key and whether it had the name or not,
no getter and no accessor is called, the reply is made of what the first one was made of,
and it is the same if it was asked for in the same way and formatters are functions. -/
theorem memo_invisible (env : Env σ) (v : Value) (s : σ) (ops : List Op) :
    ((start v s).events env ops).map (fun e => (e.context.scope, e.query)) = asked [v] ops ∧
    (env.host.Steady → ∀ e ∈ (start v s).events env ops,
      ∃ found, (∀ r, e.context.scope.Resolves env s e.query.name.toList r ↔ r = found) ∧
        e.reply = (e.query.reply env found s).1) ∧
    ((start v s).events env ops).Pairwise fun e e' =>
      e.frame = e'.frame → e.query.name = e'.query.name →
        e'.calls env = [] ∧
        (e.query = e'.query → e.query.Functional env → e.reply = e'.reply) ∧
        ∃ found, (∃ t, e.reply = (e.query.reply env found t).1) ∧
          e'.reply = (e'.query.reply env found e'.host).1 ∧ e'.Recalls found := by
  refine ⟨events_asked env _ ops, fun hs e he => ?_, ?_⟩
  · have hn : Faithful env s [] := trivial
    have hf : Faithful env s (start v s).context.frames := hn.push v
    exact ⟨_, Scope.resolves_iff hs s _ _, events_faithful hs hf ops e he⟩
  · refine (events_once (start_sound v s) ops).imp fun hp hn hq => ?_
    obtain ⟨r, ⟨t, hr⟩, hr', hc⟩ := hp hn hq
    refine ⟨hc.calls_nil env, fun he hfun => ?_, r, ⟨t, hr⟩, hr', hc⟩
    obtain ⟨o, ho⟩ := hfun.reply r
    rw [hr, hr', ← he, ho]
    rfl

def tellingKind : Host Unit :=
  { Host.plain with
    getter := fun _ v s => (.string v.typeName, s)
    get := fun _ key s => (.ok (if key = "kind" then some (.getter 0) else none), s) }

theorem tellingKind_steady : tellingKind.Steady :=
  ⟨fun _ _ _ => rfl, fun _ _ _ => rfl, fun _ _ _ _ => rfl⟩

/-- The accessor is asked for its kind, once more from within a frame, and after that
frame is gone; and the frame for the kind and twice for what there is not. -/
theorem memo_invisible_nested :
    let env : Env Unit := ⟨tellingKind, .empty⟩
    let es := (start (.accessor 0 [] none) ()).events env
      [.ask 0 (.resolve "kind"), .push .null, .ask 1 (.lookup "kind"), .ask 0 (.resolve "kind"),
        .ask 0 (.lookup "none"), .ask 0 (.resolve "none"), .pop, .ask 0 (.lookup "kind")]
    es.map (fun e => (e.frame, e.query.name, (e.calls env).length)) =
      [(0, "kind", 2), (0, "kind", 0), (1, "kind", 2), (1, "none", 1), (1, "none", 0),
        (0, "kind", 0)] ∧
    es.map (fun e => e.reply) =
      [.found (some (.string "object")), .value (.string "object"),
        .found (some (.string "null")), .value .null, .found none, .value (.string "object")] ∧
    (∀ e ∈ es, ∃ found,
      (∀ r, e.context.scope.Resolves env () e.query.name.toList r ↔ r = found) ∧
        e.reply = (e.query.reply env found ()).1) ∧
    ∃ e e', es[0]? = some e ∧ es[5]? = some e' ∧ e'.calls env = [] ∧
      (e.query = e'.query → e.query.Functional env → e.reply = e'.reply) ∧
      ∃ found, (∃ t, e.reply = (e.query.reply env found t).1) ∧
        e'.reply = (e'.query.reply env found e'.host).1 ∧ e'.Recalls found := by
  intro env es
  obtain ⟨-, hsteady, honce⟩ := memo_invisible env (.accessor 0 [] none) ()
    [.ask 0 (.resolve "kind"), .push .null, .ask 1 (.lookup "kind"), .ask 0 (.resolve "kind"),
      .ask 0 (.lookup "none"), .ask 0 (.resolve "none"), .pop, .ask 0 (.lookup "kind")]
  refine ⟨by decide, rfl, hsteady tellingKind_steady, es[0], es[5], rfl, rfl, ?_⟩
  exact List.pairwise_iff_getElem.1 honce 0 5 (by decide) (by decide) (by decide) rfl rfl

end Session

end Stencil
