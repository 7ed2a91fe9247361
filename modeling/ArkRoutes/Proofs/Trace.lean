import ArkRoutes.Scan

namespace ArkRoutes

abbrev Answer := Except ResolveError Literal

inductive Act where
  /-- The module at a path is asked while the files of the chain are being read. -/
  | asks (chain : List Path) (path : Path) (q : Query) (answer : Answer)
  /-- A file is read, and the chain includes it already. -/
  | reads (chain : List Path) (file : Path)

def Act.chain : Act → List Path
  | asks chain _ _ _ => chain
  | reads chain _ => chain

def Act.Answered (chain : List Path) (ask : Path → Query → Answer) (a : Act) : Prop :=
  ∀ path q answer, a = .asks chain path q answer → answer = ask path q

structure Logged (α : Type) where
  value : α
  acts : List Act

namespace Logged

variable {α β : Type}

instance : Monad Logged where
  pure a := ⟨a, []⟩
  bind x f := ⟨(f x.value).value, x.acts ++ (f x.value).acts⟩

def act (a : Act) : Logged Unit := ⟨(), [a]⟩

@[simp] theorem value_pure (a : α) : (pure a : Logged α).value = a := rfl
@[simp] theorem acts_pure (a : α) : (pure a : Logged α).acts = [] := rfl
@[simp] theorem value_bind (x : Logged α) (f : α → Logged β) : (x >>= f).value = (f x.value).value := rfl
@[simp] theorem acts_bind (x : Logged α) (f : α → Logged β) : (x >>= f).acts = x.acts ++ (f x.value).acts := rfl
@[simp] theorem acts_act (a : Act) : (act a).acts = [a] := rfl

def Only (P : Act → Prop) (x : Logged α) : Prop := ∀ a ∈ x.acts, P a

variable {P : Act → Prop}

@[simp] theorem only_pure (a : α) : Only P (pure a : Logged α) := by simp [Only]

@[simp] theorem only_act {a : Act} : Only P (act a) ↔ P a := by simp [Only]

theorem only_bind_iff {x : Logged α} {f : α → Logged β} : (x >>= f).Only P ↔ x.Only P ∧ (f x.value).Only P := by
  simp [Only, or_imp, forall_and]

theorem only_true (x : Logged α) : x.Only fun _ => True := fun _ _ => trivial

theorem only_bind {x : Logged α} {f : α → Logged β} (hx : x.Only P) (hf : (f x.value).Only P) :
    (x >>= f).Only P :=
  only_bind_iff.mpr ⟨hx, hf⟩

end Logged

structure Watch where
  settings : Settings
  path : Path
  locate : String → Except ResolveError Located
  ask : Path → Query → Logged Answer

namespace Watch

variable (w : Watch)

def hearing (ask : Path → Query → Answer) : Surroundings := ⟨w.settings, w.path, w.locate, ask⟩

def imported (b : Bindings) (r : Reference) : Logged Answer :=
  match b.import? r.subject with
  | none => pure (.error (.unbound r.subject))
  | some binding =>
    match binding.name.query r with
    | .error cause => pure (.error cause)
    | .ok q =>
      match w.locate binding.specifier with
      | .error cause => pure (.error cause)
      | .ok l => w.ask l.path { q with indexed := l.isEntry }

def evaluate (s : Scope) : Nat → Expr → Logged Answer
  | 0, _ => pure (.error (.depthExceeded w.settings.depthLimit))
  | _ + 1, .literal v => pure (.ok v)
  | steps + 1, .name x =>
    if (s.bindings.import? x).isSome then w.imported s.bindings (.name x)
    else match s.constant x with
      | .error cause => pure (.error cause)
      | .ok e => evaluate s steps e
  | steps + 1, .member o m =>
    if (s.bindings.import? o).isSome then w.imported s.bindings (.member o m)
    else match s.member w.path o m with
      | .error cause => pure (.error cause)
      | .ok e => evaluate s steps e
  | _ + 1, .object properties => pure (.error (.notLiteral (Expr.object properties).describe))
  | _ + 1, .other kind => pure (.error (.notLiteral (Expr.other kind).describe))

def value (s : Scope) (e : Expr) : Logged Answer := w.evaluate s (w.settings.depthLimit + 1) e

def finding (s : Scope) (e : Expr) : Logged (Option Finding) := do
  let answer ← w.value s e
  return some (.ofResult answer)

def answer? (q : Query) (s : Scope) : Event → Logged (Option Finding)
  | .constant name value =>
    if name = q.owner then
      match q.attribute?, value with
      | none, value => w.finding s value
      | some a, .object properties =>
        match Expr.property? properties a with
        | some e => w.finding s e
        | none => pure none
      | some _, _ => pure none
    else pure none
  | .opens name fields =>
    if name = q.owner then
      match q.attribute? with
      | none => pure none
      | some a =>
        match fields.lookup a with
        | some e => w.finding (s.note (.opens name fields)) e
        | none => pure none
    else pure none
  | .reexports names source =>
    if q.indexed && names.any (·.exported == q.owner) then
      match w.locate source with
      | .ok located => pure (some (.redirected located.path))
      | .error _ => pure none
    else pure none
  | _ => pure none

def search (q : Query) : Scope → List Event → Logged (Scope × Option Finding)
  | s, [] => pure (s, none)
  | s, e :: rest => do
    match ← w.answer? q s e with
    | some finding => pure (s.note e, some finding)
    | none => search q (s.note e) rest

def askEach (q : Query) : List String → Logged (Option Literal)
  | [] => pure none
  | specifier :: rest =>
    match w.locate specifier with
    | .error _ => askEach q rest
    | .ok l => do
      match ← w.ask l.path (q.redirected q.owner l.isEntry) with
      | .ok v => pure (some v)
      | .error _ => askEach q rest

def follow (q : Query) (b : Bindings) (target? : Option Path) : Logged Answer :=
  match b.redirect? q.owner with
  | some r =>
    match target? with
    | some path => w.ask path (q.redirected r.original false)
    | none =>
      match w.locate r.specifier with
      | .error cause => pure (.error cause)
      | .ok l => w.ask l.path (q.redirected r.original l.isEntry)
  | none => do
    match ← w.askEach q b.wholesale with
    | some v => pure (.ok v)
    | none => pure (.error (.notFound q.describe w.path))

def answerFrom (q : Query) (events : List Event) : Logged Answer := do
  match ← w.search q {} events with
  | (_, some (.value v)) => pure (.ok v)
  | (_, some .notLiteral) => pure (.error (.notLiteral q.describe))
  | (s, some (.redirected path)) => w.follow q s.bindings (some path)
  | (s, none) => w.follow q s.bindings none

def apply (s : Scope) (d : Draft) : List (String × Expr) → Logged Draft
  | [] => pure d
  | (key, e) :: rest => do
    match ← w.value s e with
    | .ok v => apply s (d.set w.settings.decorator key v) rest
    | .error _ => apply s d rest

def onDecorator (c : Collector) (properties : List (String × Expr)) : Logged Collector :=
  match c.stage with
  | .declaring draft => do
    let d ← w.apply c.scope draft properties
    return if d.isNamed then c.publish w.path d else { c with stage := .declaring d }
  | _ => do
    let d ← w.apply c.scope {} properties
    return { c with stage := if d.isNamed then .awaiting d false else .idle }

/-- Only decorators ask anything: at any other event it does not matter what modules answer. -/
def step (c : Collector) : Event → Logged Collector
  | .decorator callee args =>
    match Collector.routeArguments? w.settings.decorator callee args with
    | some properties => w.onDecorator c properties
    | none => pure c
  | e => pure (c.step (w.hearing fun path q => .error (.notFound q.describe path)) e)

def run (c : Collector) : List Event → Logged Collector
  | [] => pure c
  | e :: rest => do run (← w.step c e) rest

end Watch

namespace Resolution

variable (s : Settings) (t : FileTree)

def watch (path : Path) (chain : List Path) (resolve : Path → Query → Logged Answer) : Watch where
  settings := s
  path := path
  locate := Module.locate s t path.directory
  ask path q := do
    Logged.act (.asks chain path q (resolve path q).value)
    resolve path q

def resolveLogged : (depth : Nat) → (chain : List Path) → Path → Query → Logged Answer
  | depth, chain, path, q =>
    let key := t.key path
    if chain.any key.same then pure (.error (.cycle key))
    else match depth with
      | 0 => pure (.error (.depthExceeded s.depthLimit))
      | depth + 1 => do
        Logged.act (.reads (chain ++ [key]) key)
        match t.events key with
        | .error cause => pure (.error (.unreadable key cause))
        | .ok events => (watch s t key (chain ++ [key]) (resolveLogged depth (chain ++ [key]))).answerFrom q events

def queryLogged (chain : List Path) (path : Path) (q : Query) : Logged Answer :=
  resolveLogged s t (room s chain) chain path q

def aroundLogged (chain : List Path) (path : Path) : Watch := watch s t path chain (queryLogged s t chain)

end Resolution

def FileTree.scanLogged (t : FileTree) (s : Settings) (entry : Path) : Logged (Except ScanError (List Route)) :=
  match t.canonical entry with
  | .error cause => pure (.error (.io entry cause))
  | .ok key =>
    match t.events entry with
    | .error cause => pure (.error cause)
    | .ok events => do
      let c ← (Resolution.aroundLogged s t [key] entry).run {} events
      return .ok c.routes

end ArkRoutes
