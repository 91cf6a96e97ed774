import Stencil.Proofs.Engine.Cache
import Stencil.Proofs.Lookup.Walk
import Stencil.Proofs.Render.Likeness
import Stencil.Render.Engine

/-!
# The history of an engine

An engine beside one that parses afresh each time and looks formatters up in the
order of their registration, the latest first. Whatever was asked of both before,
both answer the same. The history shows only in the number of templates kept and in
which parses are one and the same.
-/

set_option autoImplicit false

namespace Stencil

variable {σ : Type}

/-- What can be asked of an engine. A rendering without delimiters of its own is one
with the standard ones. -/
inductive Request (σ : Type)
  | render (partials : Partials σ) (d : Delimiters) (source : String) (data : Value)
  | renderValue (partials : Partials σ) (d : Delimiters) (template data : Value)
  | parse (d : Delimiters) (source : String)
  | clear
  | register (name : String) (r : Routine)
  | wrap (depth : Option Nat) (v : Value)
  | get (v : Value) (key : String)

inductive Answer
  | rendered (text : String) (skipped : List String)
  | refused (e : InvalidTemplate)
  | parsed (t : Template)
  | wrapped (v : Value)
  | found (r : Option (Except LookupError (Option Value)))
  | done

namespace Answer

def ofKey (env : Env σ) (v : Value) (key : String) (s : σ) : Answer × σ :=
  match ask? env v key.toList with
  | none => (.found none, s)
  | some act => (.found (some (act s).1), (act s).2)

end Answer

namespace Engine

def answer (host : Host σ) (e : Engine) (s : σ) :
    Request σ → Except RenderFault (Answer × Engine × σ)
  | .render partials d source data =>
    (e.renderWith host partials d source data s).map
      fun (r, e) => (.rendered r.text r.skipped, e, r.host)
  | .renderValue partials d template data =>
    match e.renderValue host partials d template data s with
    | .ok (r, e) => .ok (.rendered r.text r.skipped, e, r.host)
    | .error (.invalidTemplate i) => .ok (.refused i, e, s)
    | .error (.fault f) => .error f
  | .parse d source => let (p, e) := e.parse d source; .ok (.parsed p.template, e, s)
  | .clear => .ok (.done, e.clearCache, s)
  | .register name f => .ok (.done, e.register name f, s)
  | .wrap none v => let (v, e) := e.wrap v; .ok (.wrapped v, e, s)
  | .wrap (some depth) v => let (v, e) := e.wrapTo depth v; .ok (.wrapped v, e, s)
  | .get v key => let (a, s) := Answer.ofKey (e.env host) v key s; .ok (a, e, s)

def serve (host : Host σ) : List (Request σ) → Engine → σ →
    Except RenderFault (List Answer × Engine × σ)
  | [], e, s => .ok ([], e, s)
  | q :: qs, e, s =>
    e.answer host s q >>= fun (a, e, s) =>
      (serve host qs e s).map fun (as, e, s) => (a :: as, e, s)

end Engine

/-- An engine without a cache. It only notes, for nobody to read, which templates were
asked for since it was last told to forget. -/
structure Uncached where
  /-- The formatters in the order they were registered, the latest first. -/
  registered : List (String × Routine)
  wrapDepth : Nat := standardDepth
  lambdaLimit : Nat := 1000
  wrappings : Nat := 0
  asked : List Asked := []

namespace Uncached

def env (e : Uncached) (host : Host σ) : Env σ := ⟨host, ⟨e.registered⟩⟩

def render (e : Uncached) (host : Host σ) (partials : Partials σ) (d : Delimiters)
    (source : String) (data : Value) (s : σ) : Except RenderFault (Answer × Uncached × σ) :=
  let st : Setting σ (List Asked) := ⟨e.env host, .recorded, partials, d, e.lambdaLimit⟩
  (st.render (.parse d source) data { host := s, library := (source, d) :: e.asked }).map
    fun (out, w) => (.rendered out w.skipped, { e with asked := w.library }, w.host)

def answer (host : Host σ) (e : Uncached) (s : σ) :
    Request σ → Except RenderFault (Answer × Uncached × σ)
  | .render partials d source data => e.render host partials d source data s
  | .renderValue partials d (.string source) data => e.render host partials d source data s
  | .renderValue _ _ v _ => .ok (.refused ⟨v.typeName⟩, e, s)
  | .parse d source => .ok (.parsed (.parse d source), { e with asked := (source, d) :: e.asked }, s)
  | .clear => .ok (.done, { e with asked := [] }, s)
  | .register name f => .ok (.done, { e with registered := (name, f) :: e.registered }, s)
  | .wrap depth v =>
    .ok (.wrapped (Wrapping.wrap ⟨e.wrappings, .engine⟩ (depth.getD e.wrapDepth) v),
      { e with wrappings := e.wrappings + 1 }, s)
  | .get v key => let (a, s) := Answer.ofKey (e.env host) v key s; .ok (a, e, s)

def serve (host : Host σ) : List (Request σ) → Uncached → σ →
    Except RenderFault (List Answer × Uncached × σ)
  | [], e, s => .ok ([], e, s)
  | q :: qs, e, s =>
    e.answer host s q >>= fun (a, e, s) =>
      (serve host qs e s).map fun (as, e, s) => (a :: as, e, s)

end Uncached

def Cache.likeness (P : Cache → Prop) : Likeness Cache (List Asked) :=
  .ofLibraries fun c asked => c.Holds asked ∧ P c

structure Engine.Tracks (P : Cache → Prop) (e : Engine) (r : Uncached) : Prop where
  formatters : ∀ name, e.formatters.get? name = (⟨r.registered⟩ : Formatters).get? name
  wrapDepth : e.wrapDepth = r.wrapDepth
  lambdaLimit : e.lambdaLimit = r.lambdaLimit
  wrappings : e.wrappings = r.wrappings
  holds : e.cache.Holds r.asked
  kept : P e.cache

theorem Engine.Tracks.recache {P Q : Cache → Prop} {e : Engine} {r : Uncached} (h : e.Tracks P r)
    {c : Cache} {asked : List Asked} (hc : c.Holds asked) (hq : Q c) :
    Engine.Tracks Q { e with cache := c } { r with asked := asked } :=
  ⟨h.formatters, h.wrapDepth, h.lambdaLimit, h.wrappings, hc, hq⟩

namespace Engine

def SameEnds {α : Type} (P : Cache → Prop) (x : α × Engine × σ) (y : α × Uncached × σ) : Prop :=
  x.1 = y.1 ∧ x.2.1.Tracks P y.2.1 ∧ x.2.2 = y.2.2

variable {P : Cache → Prop} {e : Engine} {r : Uncached}

/-- Only the library is the cache's: what is rendered is the parse of the source. -/
theorem renderWith_eq (e : Engine) (host : Host σ) (partials : Partials σ)
    (d : Delimiters) (source : String) (data : Value) (s : σ) :
    e.renderWith host partials d source data s =
      (Setting.render ⟨e.env host, .cached, partials, d, e.lambdaLimit⟩ (.parse d source) data
        { host := s, library := (e.cache.fetch d source).2 }).map
        fun (out, w) => (⟨out, w.skipped, w.host⟩, { e with cache := w.library }) := by
  rw [← Cache.fetch_template d source e.cache]
  simp only [renderWith]
  generalize Setting.render _ _ _ _ = x
  cases x <;> rfl

theorem render_tracks (hP : Cache.Kept P) (h : e.Tracks P r) (host : Host σ)
    (partials : Partials σ) (d : Delimiters) (source : String) (data : Value) (s : σ) :
    Outcomes True (SameEnds P) (e.answer host s (.render partials d source data))
      (r.render host partials d source data s) := by
  let st : Setting σ Cache := ⟨e.env host, .cached, partials, d, e.lambdaLimit⟩
  let st' : Setting σ (List Asked) := ⟨r.env host, .recorded, partials, d, r.lambdaLimit⟩
  have hlib : ∀ d source c asked, (Cache.likeness P).library c asked →
      (Cache.likeness P).library (c.fetch d source).2 ((source, d) :: asked) :=
    fun d source c _ hc => ⟨hc.1.fetch d source, hP d source c hc.2⟩
  have hst : st.Alike (Cache.likeness P) (fun _ => True) st' :=
    ⟨rfl, rfl, rfl, h.lambdaLimit, hlib,
      fun key _ _ _ hs => Likeness.ofLibraries_lookup h.formatters key hs⟩
  have hstart : (Cache.likeness P).Worlds
      { host := s, library := (e.cache.fetch d source).2 }
      { host := s, library := (source, d) :: r.asked } :=
    ⟨rfl, hlib d source _ _ ⟨h.holds, h.kept⟩, .nil, rfl⟩
  have halike : (Cache.likeness P).Acts (· = ·) (st.render (.parse d source) data)
      (st'.render (.parse d source) data) :=
    Setting.render_alike (Likeness.ofLibraries_sound _) hst (Setting.reads_all True st)
      (fun _ _ => trivial) rfl
  have hrun := halike hstart
  rw [answer, renderWith_eq, Uncached.render]
  revert hrun
  generalize st.render _ _ _ = x
  generalize st'.render _ _ _ = y
  intro hrun
  cases hrun with
  | ok hr =>
    refine .ok ⟨?_, ?_, hr.2.host⟩
    · simp only [hr.1, hr.2.skipped]
    · exact h.recache hr.2.library.1 hr.2.library.2
  | error f _ => exact .error f trivial

theorem answer_text (e : Engine) (host : Host σ) (s : σ) (partials : Partials σ)
    (d : Delimiters) (source : String) (data : Value) :
    e.answer host s (.renderValue partials d (.string source) data) =
      e.answer host s (.render partials d source data) := by
  simp only [answer, renderValue]
  generalize e.renderWith host partials d source data s = x
  cases x <;> rfl

/-- A template that is no text is an error, which changes nothing. -/
theorem answer_refused (e : Engine) (host : Host σ) (s : σ) (partials : Partials σ)
    (d : Delimiters) {v : Value} (hv : ∀ source, v ≠ .string source) (data : Value) :
    e.answer host s (.renderValue partials d v data) = .ok (.refused ⟨v.typeName⟩, e, s) := by
  cases v with
  | string source => exact absurd rfl (hv source)
  | _ => rfl

theorem get?_register (fs : Formatters) (gs : List (String × Routine))
    (h : ∀ name, fs.get? name = (⟨gs⟩ : Formatters).get? name) (name : String) (r : Routine)
    (other : String) :
    (fs.register name r).get? other = (⟨(name, r) :: gs⟩ : Formatters).get? other := by
  by_cases ho : other = name
  · subst ho
    simp [Formatters.get?, Formatters.register, Table.get?_put_self, Table.get?]
  · have hother := h other
    simp only [Formatters.get?] at hother
    simp [Formatters.get?, Formatters.register, Table.get?_put_of_ne ho, Table.get?, ho, hother]

theorem answer_tracks (hP : Cache.Kept P) (h : e.Tracks P r) (host : Host σ) (s : σ) (q : Request σ)
    (hclear : q = .clear → ∀ c, P c → P c.clear) :
    Outcomes True (SameEnds P) (e.answer host s q) (r.answer host s q) := by
  cases q with
  | render partials d source data => exact render_tracks hP h host partials d source data s
  | renderValue partials d v data =>
    cases v with
    | string source =>
      rw [answer_text]
      exact render_tracks hP h host partials d source data s
    | _ => exact .ok ⟨rfl, h, rfl⟩
  | parse d source =>
    refine .ok ⟨?_, ?_, rfl⟩
    · exact congrArg Answer.parsed (Cache.fetch_template d source e.cache)
    · exact h.recache (h.holds.fetch d source) (hP _ _ _ h.kept)
  | clear => exact .ok ⟨rfl, h.recache (.nil rfl) (hclear rfl _ h.kept), rfl⟩
  | register name f =>
    exact .ok ⟨rfl, ⟨get?_register _ _ h.formatters name f, h.wrapDepth, h.lambdaLimit,
      h.wrappings, h.holds, h.kept⟩, rfl⟩
  | wrap depth v =>
    have hn : e.wrappings + 1 = r.wrappings + 1 := by rw [h.wrappings]
    cases depth with
    | none =>
      refine .ok ⟨?_, ⟨h.formatters, h.wrapDepth, h.lambdaLimit, hn, h.holds, h.kept⟩, rfl⟩
      rw [Option.getD_none, ← h.wrapDepth, ← h.wrappings]
    | some depth =>
      refine .ok ⟨?_, ⟨h.formatters, h.wrapDepth, h.lambdaLimit, hn, h.holds, h.kept⟩, rfl⟩
      rw [Option.getD_some, ← h.wrappings]
  | get v key =>
    have ha : Answer.ofKey (e.env host) v key s = Answer.ofKey (r.env host) v key s := by
      have hask : ask? (e.env host) v key.toList = ask? (r.env host) v key.toList :=
        ask_congr h.formatters v key.toList
      rw [Answer.ofKey, hask]
      rfl
    exact .ok ⟨congrArg Prod.fst ha, h, congrArg Prod.snd ha⟩

theorem serve_tracks (hP : Cache.Kept P) (host : Host σ) (qs : List (Request σ))
    (hclear : .clear ∈ qs → ∀ c, P c → P c.clear) (h : e.Tracks P r) (s : σ) :
    Outcomes True (SameEnds P) (e.serve host qs s) (r.serve host qs s) := by
  induction qs generalizing e r s with
  | nil => exact .ok ⟨rfl, h, rfl⟩
  | cons q qs ih =>
    have hq : q = .clear → ∀ c, P c → P c.clear := fun hq => hclear (by simp [hq])
    have hqs : .clear ∈ qs → ∀ c, P c → P c.clear := fun hqs => hclear (by simp [hqs])
    refine (answer_tracks hP h host s q hq).bind fun x y hxy => ?_
    obtain ⟨a, e₁, s₁⟩ := x
    obtain ⟨a', r₁, s₁'⟩ := y
    obtain ⟨rfl, h₁, rfl⟩ : a = a' ∧ e₁.Tracks P r₁ ∧ s₁ = s₁' := hxy
    have hrest := ih hqs h₁ s₁
    show Outcomes True _ ((e₁.serve host qs s₁).map _) ((r₁.serve host qs s₁).map _)
    generalize e₁.serve host qs s₁ = x at hrest
    generalize r₁.serve host qs s₁ = y at hrest
    cases hrest with
    | ok hr => exact .ok ⟨congrArg (a :: ·) hr.1, hr.2⟩
    | error f _ => exact .error f trivial

theorem serve_kept (hP : Cache.Kept P) {host : Host σ} {qs : List (Request σ)}
    (hclear : .clear ∈ qs → ∀ c, P c → P c.clear) (h : e.Tracks P r) {s s' : σ}
    {as : List Answer} {e' : Engine} (hs : e.serve host qs s = .ok (as, e', s')) :
    ∃ r', e'.Tracks P r' := by
  have ho := serve_tracks hP host qs hclear h s
  rw [hs] at ho
  generalize r.serve host qs s = y at ho
  cases ho with
  | @ok _ y hr => exact ⟨y.2.1, hr.2.1⟩

theorem serve_cons_ok {host : Host σ} {q : Request σ} {qs : List (Request σ)} {e e' : Engine} {s s' : σ}
    {as : List Answer} (hs : e.serve host (q :: qs) s = .ok (as, e', s')) :
    ∃ a e₁ s₁ bs, e.answer host s q = .ok (a, e₁, s₁) ∧ e₁.serve host qs s₁ = .ok (bs, e', s') := by
  rw [serve] at hs
  cases hq : e.answer host s q with
  | error f => rw [hq] at hs; cases hs
  | ok x =>
    obtain ⟨a, e₁, s₁⟩ := x
    rw [hq] at hs
    change (e₁.serve host qs s₁).map _ = _ at hs
    cases hrest : e₁.serve host qs s₁ with
    | error f => rw [hrest] at hs; cases hs
    | ok y =>
      obtain ⟨bs, e₂, s₂⟩ := y
      rw [hrest] at hs
      cases hs
      exact ⟨a, e₁, s₁, bs, rfl, hrest⟩

theorem serve_cleared {n : Nat} (h : e.Tracks (fun c => c.Numbered 0 ∧ n < c.next) r)
    {host : Host σ} {qs : List (Request σ)} (hq : .clear ∈ qs) {s s' : σ} {as : List Answer}
    {e' : Engine} (hs : e.serve host qs s = .ok (as, e', s')) : e'.cache.Numbered (n + 1) := by
  induction qs generalizing e r s as with
  | nil => cases hq
  | cons q qs ih =>
    obtain ⟨a, e₁, s₁, bs, ha, hrest⟩ := serve_cons_ok hs
    by_cases hc : q = .clear
    · -- from the clear on it is enough that numbers start above `n`
      subst hc
      cases ha
      have hstart : e.clearCache.Tracks (Cache.Numbered (n + 1)) { r with asked := [] } :=
        h.recache (.nil rfl) (.clear h.kept.2)
      obtain ⟨r', hr'⟩ := serve_kept (Cache.Numbered.kept _)
        (fun _ c hc => .clear (Nat.lt_of_lt_of_le (Nat.lt_succ_self n) hc.low_le)) hstart hrest
      exact hr'.kept
    · have hstep := answer_tracks (Cache.Numbered.kept_above n) h host s q fun h => absurd h hc
      rw [ha] at hstep
      generalize r.answer host s q = y at hstep
      cases hstep with
      | ok hr => exact ih hr.2.1 ((List.mem_cons.1 hq).resolve_left (Ne.symm hc)) hrest

def new (fs : Formatters) (depth limit : Nat) : Engine :=
  { formatters := fs, wrapDepth := depth, lambdaLimit := limit }

theorem new_tracks (fs : Formatters) (depth limit : Nat) (hP : P {}) :
    (new fs depth limit).Tracks P
      { registered := fs.entries, wrapDepth := depth, lambdaLimit := limit } :=
  ⟨fun _ => rfl, rfl, rfl, rfl, .nil rfl, hP⟩

/-- Parsing again gives the parse of before as long as nothing was cleared, and no
other request gives it: parses of one number are the parse of one source and pair
of delimiters between two clears. -/
theorem parse_again {e e' : Engine} {r : Uncached} (h : e.Tracks (Cache.Numbered 0) r)
    {d : Delimiters} {source : String} {host : Host σ} {qs : List (Request σ)} {s s' : σ}
    {as : List Answer} (hs : (e.parse d source).2.serve host qs s = .ok (as, e', s')) :
    (.clear ∉ qs → (e'.parse d source).1 = (e.parse d source).1) ∧
      ∀ d' source', (e'.parse d' source').1.number = (e.parse d source).1.number ↔
        (source', d') = (source, d) ∧ .clear ∉ qs := by
  have hkept := Cache.Numbered.kept 0
  have hparse : (e.parse d source).2.Tracks (Cache.Numbered 0)
      { r with asked := (source, d) :: r.asked } :=
    h.recache (h.holds.fetch d source) (hkept _ _ _ h.kept)
  have hfound := Cache.find?_fetch d source e.cache
  have hin := Cache.find?_mem hfound
  by_cases hq : .clear ∈ qs
  · refine ⟨fun hn => absurd hq hn, fun d' source' => ?_⟩
    have hlow := (hparse.kept.bounds _ hin).2
    have hnew : e'.cache.Numbered ((e.parse d source).1.number + 1) :=
      serve_cleared (hparse.recache hparse.holds ⟨hparse.kept, hlow⟩) hq hs
    have hin' := Cache.find?_mem (Cache.find?_fetch d' source' e'.cache)
    have hge := ((Cache.Numbered.kept _ d' source' _ hnew).bounds _ hin').1
    exact ⟨fun he => absurd he (Nat.ne_of_gt hge), fun he => absurd hq he.2⟩
  · have hboth : Cache.Kept fun c => c.Numbered 0 ∧
        c.find? (source, d) = some (e.parse d source).1 := fun d' source' c hc =>
      ⟨hkept d' source' c hc.1, Cache.find?_kept _ _ d' source' c hc.2⟩
    obtain ⟨r', hr'⟩ := serve_kept hboth (fun hc => absurd hc hq)
      (hparse.recache hparse.holds ⟨hparse.kept, hfound⟩) hs
    have hsame : (e'.parse d source).1 = (e.parse d source).1 := by
      show (e'.cache.fetch d source).1 = _
      rw [Cache.fetch_hit hr'.kept.2]
    refine ⟨fun _ => hsame, fun d' source' => ⟨fun he => ⟨?_, hq⟩, fun he => ?_⟩⟩
    · -- both parses are entries of the cache behind the second one
      obtain ⟨hnum, hold⟩ := hboth d' source' _ hr'.kept
      have hentry := hnum.eq_of_number (Cache.find?_mem (Cache.find?_fetch d' source' e'.cache))
        (Cache.find?_mem hold) he
      exact congrArg Prod.fst hentry
    · obtain ⟨rfl, rfl⟩ := Prod.mk.inj he.1
      rw [hsame]

/-- What an engine answers does not depend on what it has kept. It answers any requests as
an engine does that parses every time and takes the formatter registered last, also for
nodes wrapped before, and it keeps as many templates as this one was asked for since the
last clear, each counted once: by parses, renderings, partials that were inserted and texts
that lambdas had rendered, whatever the limit on how deep these nest. At any time parsing a
template again gives the very same parse unless there was a clear in between, and an equal
one if there was, and a template that is no text is refused, with nothing changed. -/
theorem history_invisible (host : Host σ) (fs : Formatters) (depth limit : Nat)
    (qs : List (Request σ)) (s : σ) :
    Outcomes True
        (fun (as, e, s) (as', r, s') =>
          as = as' ∧ s = s' ∧ e.cachedTemplates = r.asked.dedup.length)
        ((new fs depth limit).serve host qs s)
        (Uncached.serve host qs
          { registered := fs.entries, wrapDepth := depth, lambdaLimit := limit } s) ∧
      ∀ as e s', (new fs depth limit).serve host qs s = .ok (as, e, s') →
        (∀ d source later bs e' t, (e.parse d source).2.serve host later s' = .ok (bs, e', t) →
          (.clear ∉ later → (e'.parse d source).1 = (e.parse d source).1) ∧
          (e'.parse d source).1.template = (e.parse d source).1.template ∧
          ∀ d' source', (e'.parse d' source').1.number = (e.parse d source).1.number ↔
            (source', d') = (source, d) ∧ .clear ∉ later) ∧
        ∀ partials d v data, (∀ source, v ≠ .string source) →
          e.answer host s' (.renderValue partials d v data) = .ok (.refused ⟨v.typeName⟩, e, s') := by
  have hstart : (new fs depth limit).Tracks (Cache.Numbered 0)
      { registered := fs.entries, wrapDepth := depth, lambdaLimit := limit } :=
    new_tracks fs depth limit ⟨Nat.le_refl 0, nofun, .nil⟩
  have hclear : .clear ∈ qs → ∀ c : Cache, c.Numbered 0 → c.clear.Numbered 0 :=
    fun _ c _ => ⟨Nat.zero_le _, nofun, .nil⟩
  have hruns := serve_tracks (Cache.Numbered.kept 0) host qs hclear hstart s
  constructor
  · generalize (new fs depth limit).serve host qs s = x at hruns
    generalize Uncached.serve host qs _ s = y at hruns
    cases hruns with
    | ok hr => exact .ok ⟨hr.1, hr.2.2, hr.2.1.holds.size⟩
    | error f _ => exact .error f trivial
  · intro as e s' hs
    obtain ⟨r, hr⟩ := serve_kept (Cache.Numbered.kept 0) hclear hstart hs
    refine ⟨fun d source later bs e' t hlater => ?_, fun partials d v data hv =>
      answer_refused e host s' partials d hv data⟩
    obtain ⟨hsame, hnumber⟩ := parse_again hr hlater
    refine ⟨hsame, ?_, hnumber⟩
    show (e'.cache.fetch d source).1.template = (e.cache.fetch d source).1.template
    rw [Cache.fetch_template, Cache.fetch_template]

/-- A partial inserted twice is kept once, beside the template, and after a clear it is
parsed once more. -/
theorem history_invisible_cleared :
    let partials (name : String) := if name = "p" then some "x" else none
    let before : List (Request Unit) := [.render partials .standard "{{>p}}{{>p}}" .null]
    ∃ as e, (new .empty 1 1).serve Host.plain before () = .ok (as, e, ()) ∧
      e.cachedTemplates = 2 ∧
      ∃ e', (e.parse .standard "x").2.serve Host.plain [.clear] () = .ok ([.done], e', ()) ∧
        (e'.parse .standard "x").1.number ≠ (e.parse .standard "x").1.number ∧
        (e'.parse .standard "x").1.template = (e.parse .standard "x").1.template := by
  intro partials before
  have hkept : ((new .empty 1 1).serve Host.plain before ()).toOption.map
      (fun r => r.2.1.cachedTemplates) = some 2 := by decide +kernel
  obtain ⟨-, hserve⟩ := history_invisible Host.plain .empty 1 1 before ()
  cases hrun : (new .empty 1 1).serve Host.plain before () with
  | error f =>
    rw [hrun] at hkept
    cases hkept
  | ok r =>
    obtain ⟨as, e, s⟩ := r
    rw [hrun] at hkept
    obtain ⟨hparses, -⟩ := hserve as e s hrun
    obtain ⟨-, hequal, hnumber⟩ := hparses .standard "x" [.clear] [.done] _ s rfl
    refine ⟨as, e, rfl, Option.some.inj hkept, _, rfl, ?_, hequal⟩
    intro h
    exact ((hnumber .standard "x").1 h).2 (List.mem_singleton_self _)

end Engine

end Stencil
