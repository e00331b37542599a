import FunctionalOptions.Proofs.Types.Written
import Mathlib.Data.List.Forall2

/-!
# What the Printer Looks Up

Two traversals of a type have to meet the same packages: the one that collects
them, so that they get an alias and an import line, and the printer, which looks
the aliases up. A package that only the printer meets would be written without
its qualifier, and one that only the other meets would be imported for nothing.

What the printer returns does not tell what it looked up, since a package with an
empty alias is written like one with none. So the printer is taken here as an
inquiry, which has no table and can only ask for the alias of a path and go on
with the answer. Answered from a table it is the printer, and what it asks on the
way is what the printer looks up.

The two traversals agree on types that can be printed. On others the printer stops
early: it refuses a function type with a misplaced variadic mark as a whole, while
the packages of its parameters are collected all the same.

## Main definitions

* `Inquiry`: A computation that can ask for the alias of a path.
* `Inquiry.run`, `Inquiry.asked`: What comes of it and what it asks, given the
  answers.
* `Inquiry.Yields`: An inquiry that succeeds, with all it does on the way.
* `TypeExpr.inquire`: The printer as an inquiry.
* `TypeExpr.Misses`: An event says that a package of a type has no alias.

## Theorems

* `TypeExpr.run_inquire`: Answered from a table, the inquiry is the printer.
* `TypeExpr.asksForPackages_of_wellMarked`: The inquiry about a well marked type
  asks for its packages and reports those without an alias.
* `TypeExpr.render_asks`: So does the printer of a type that it prints.
-/

namespace FunctionalOptions

namespace Go

/-! ## Inquiries -/

/-- A computation that does not see any table. It can ask for the alias of a path
    and go on with the answer. -/
inductive Inquiry (ε α : Type) where
  | answer (a : α)
  | fail (error : ε)
  | report (event : Event) (next : Inquiry ε α)
  | ask (path : String) (next : Option String → Inquiry ε α)

namespace Inquiry

variable {ε α β : Type}

/-- Go on with the answer of an inquiry. -/
def bind (x : Inquiry ε α) (f : α → Inquiry ε β) : Inquiry ε β :=
  match x with
  | answer a => f a
  | fail error => fail error
  | report event next => report event (next.bind f)
  | ask path next => ask path fun alias? => (next alias?).bind f

instance : Monad (Inquiry ε) where
  pure := answer
  bind := bind

/-- What comes of an inquiry, given the alias of each path. -/
def run (aliasOf : String → Option String) : Inquiry ε α → Logged ε α
  | answer a => pure a
  | fail error => .fail error
  | report event next => ⟨event :: (next.run aliasOf).events, (next.run aliasOf).result⟩
  | ask path next => (next (aliasOf path)).run aliasOf

/-- The paths that an inquiry asks for, in order and with repetitions. -/
def asked (aliasOf : String → Option String) : Inquiry ε α → List String
  | answer _ => []
  | fail _ => []
  | report _ next => next.asked aliasOf
  | ask path next => path :: (next (aliasOf path)).asked aliasOf

variable {aliasOf : String → Option String}

/-- Answering a sequence is answering its parts. -/
theorem run_bind (aliasOf : String → Option String) (x : Inquiry ε α) (f : α → Inquiry ε β) :
    (x >>= f).run aliasOf = x.run aliasOf >>= fun a => (f a).run aliasOf := by
  show (x.bind f).run aliasOf = _
  induction x with
  | answer a => rfl
  | fail error => rfl
  | report event next ih =>
      show Logged.mk _ _ = Logged.bind _ _
      rw [ih]
      show Logged.mk (event :: (Logged.bind _ _).events) (Logged.bind _ _).result = _
      simp only [Logged.bind, run]
      cases (next.run aliasOf).result <;> rfl
  | ask path next ih => exact ih (aliasOf path)

/-- What a sequence asks is what its first part asks, followed by what the second
    part asks once the first one has succeeded. -/
theorem asked_bind {x : Inquiry ε α} {a : α} (h : (x.run aliasOf).result = .ok a)
    (f : α → Inquiry ε β) :
    (x >>= f).asked aliasOf = x.asked aliasOf ++ (f a).asked aliasOf := by
  show (x.bind f).asked aliasOf = _
  induction x with
  | answer b =>
      obtain rfl := Except.ok.inj h
      rfl
  | fail error => exact nomatch h
  | report event next ih => exact ih h
  | ask path next ih => exact congrArg (path :: ·) (ih (aliasOf path) h)

/-- An inquiry succeeds, given the answers, and asks and reports something on the
    way. -/
structure Yields (aliasOf : String → Option String) (x : Inquiry ε α) (a : α)
    (paths : List String) (events : List Event) : Prop where
  result_eq : (x.run aliasOf).result = .ok a
  asked_eq : x.asked aliasOf = paths
  events_eq : (x.run aliasOf).events = events

theorem yields_pure (a : α) : Yields aliasOf (pure a : Inquiry ε α) a [] [] :=
  ⟨rfl, rfl, rfl⟩

/-- What a sequence asks and reports is what its first part does, followed by what
    the second part does with the result. -/
theorem Yields.bind {x : Inquiry ε α} {f : α → Inquiry ε β} {a : α} {b : β}
    {paths others : List String} {events more : List Event} (h : Yields aliasOf x a paths events)
    (hf : Yields aliasOf (f a) b others more) :
    Yields aliasOf (x >>= f) b (paths ++ others) (events ++ more) := by
  rcases h with ⟨hresult, rfl, rfl⟩
  rcases hf with ⟨hresult', rfl, rfl⟩
  have hrun := run_bind aliasOf x f
  refine ⟨?_, asked_bind hresult f, ?_⟩
  · rw [hrun, Logged.result_bind, hresult]
    exact hresult'
  · rw [hrun, Logged.events_bind, hresult]

/-- Putting something around what was found asks and reports nothing more. -/
theorem Yields.map {x : Inquiry ε α} {a : α} {paths : List String} {events : List Event}
    (h : Yields aliasOf x a paths events) (f : α → β) :
    Yields aliasOf (x >>= fun a => pure (f a)) (f a) paths events := by
  have hmap := h.bind (f := fun a => pure (f a)) (yields_pure (f a))
  rwa [List.append_nil, List.append_nil] at hmap

end Inquiry

/-! ## The printer -/

/-- A name qualified by the alias of its package, or bare when it has none. -/
def inquireName (package : Option Package) (name : String) : Inquiry RenderError String :=
  match package with
  | none => .answer name
  | some package => .ask package.path fun
    | none => .report (noAlias package.path name) (.answer name)
    | some localName => .answer (if localName = "" then name else localName ++ "." ++ name)

namespace TypeExpr

mutual

/-- The text of a type, as an inquiry about aliases. -/
def inquire : TypeExpr → Inquiry RenderError String
  | .predeclared name => pure name
  | .named package name => inquireName package name
  | .pointer elem => do
    let elem ← elem.inquire
    return "*" ++ elem
  | .slice elem => do
    let elem ← elem.inquire
    return "[]" ++ elem
  | .array len elem => do
    let elem ← elem.inquire
    return "[" ++ toString len.toNat ++ "]" ++ elem
  | .channel dir elem => do
    let text ← elem.inquire
    return channelMark dir ++ if needsParens dir elem then "(" ++ text ++ ")" else text
  | .map key value => do
    let key ← key.inquire
    let value ← value.inquire
    return "map[" ++ key ++ "]" ++ value
  | .func inputs outputs =>
    match misplacedVariadic? inputs outputs with
    | some error => .fail error
    | none => do
      let inputTexts ← inquireParams inputs
      let outputTexts ← inquireParams outputs
      return "func(" ++ ", ".intercalate inputTexts ++ ")" ++ resultsText outputs outputTexts

/-- The texts of parameters, in order. -/
def inquireParams : List (Param TypeExpr) → Inquiry RenderError (List String)
  | [] => pure []
  | p :: ps => do
    let text ← inquireParam p
    let texts ← inquireParams ps
    return text :: texts

/-- The text of a parameter. -/
def inquireParam : Param TypeExpr → Inquiry RenderError String
  | ⟨name, type, variadic⟩ => do
    let text ← type.inquire
    return paramText ⟨name, type, variadic⟩ text

end

theorem inquireParam_eq (p : Param TypeExpr) :
    inquireParam p = do
      let text ← p.type.inquire
      return paramText p text := by
  cases p
  rw [inquireParam]

/-! ## Answered from a table -/

section Table

variable (table : AliasTable)

theorem run_inquireName (package : Option Package) (name : String) :
    (inquireName package name).run table.get? = qualify table package name := by
  cases package with
  | none => rfl
  | some package =>
      simp only [inquireName, qualify, Inquiry.run]
      cases table.get? package.path <;> rfl

/-- The inquiry about parameters is their printer when it is so for their types. -/
theorem run_inquireParams {params : List (Param TypeExpr)}
    (h : ∀ p ∈ params, p.type.inquire.run table.get? = p.type.render table) :
    (inquireParams params).run table.get? = renderParams table params := by
  induction params with
  | nil => rfl
  | cons p ps ih =>
      rw [List.forall_mem_cons] at h
      rw [inquireParams, renderParams, inquireParam_eq, renderParam_eq]
      simp only [Inquiry.run_bind, h.1, ih h.2]
      rfl

/-- Answered from a table, the inquiry is the printer. -/
theorem run_inquire (n : TypeExpr) : n.inquire.run table.get? = n.render table := by
  induction n using inductOn with
  | predeclared name => rfl
  | named package name => exact run_inquireName table package name
  | pointer elem ih =>
      rw [inquire, render, Inquiry.run_bind, ih]
      rfl
  | slice elem ih =>
      rw [inquire, render, Inquiry.run_bind, ih]
      rfl
  | array len elem ih =>
      rw [inquire, render, Inquiry.run_bind, ih]
      rfl
  | channel dir elem ih =>
      rw [inquire, render, Inquiry.run_bind, ih]
      rfl
  | map key value ihKey ihValue =>
      rw [inquire, render]
      simp only [Inquiry.run_bind, ihKey, ihValue]
      rfl
  | func inputs outputs ihIn ihOut =>
      rw [inquire, render]
      cases misplacedVariadic? inputs outputs with
      | some error => rfl
      | none =>
          simp only [Inquiry.run_bind, run_inquireParams table ihIn, run_inquireParams table ihOut]
          rfl

end Table

/-! ## What is asked and reported -/

/-- The event says that the package, which a name in the type belongs to, has no
    alias. -/
def Misses (n : TypeExpr) (package : Package) (event : Event) : Prop :=
  ∃ name, Within (.named (some package) name) n ∧ event = noAlias package.path name

theorem Misses.whole {n m : TypeExpr} {package : Package} {event : Event}
    (h : n.Misses package event) (hwithin : Within n m) : m.Misses package event :=
  h.imp fun _ hname => ⟨hname.1.trans hwithin, hname.2⟩

section Answers

variable (aliasOf : String → Option String)

/-- The packages that are without an alias by the answers. -/
def withoutAlias (packages : List Package) : List Package :=
  packages.filter fun p => (aliasOf p.path).isNone

/-- The inquiry about a type asks for its packages and reports those without an
    alias. -/
def AsksForPackages (n : TypeExpr) : Prop :=
  ∃ text events, n.inquire.Yields aliasOf text (n.packages.map (·.path)) events ∧
    List.Forall₂ n.Misses (withoutAlias aliasOf n.packages) events

variable {aliasOf}

/-- A type built around another one asks and reports what that one does. -/
theorem AsksForPackages.around {n elem : TypeExpr} (h : elem.AsksForPackages aliasOf)
    {f : String → String} (hinquire : n.inquire = do return f (← elem.inquire))
    (hpackages : n.packages = elem.packages) (hwithin : Within elem n) :
    n.AsksForPackages aliasOf := by
  rcases h with ⟨text, events, hyields, hreports⟩
  rw [AsksForPackages, hinquire, hpackages]
  exact ⟨f text, events, hyields.map f, hreports.imp fun _ _ hreport => hreport.whole hwithin⟩

/-- One name asks for its package, if it has one. -/
theorem asksForPackages_named (package : Option Package) (name : String) :
    (named package name).AsksForPackages aliasOf := by
  cases package with
  | none => exact ⟨name, [], Inquiry.yields_pure name, .nil⟩
  | some package =>
      -- It is asked for in either case, and reported if there is no alias.
      cases halias : aliasOf package.path with
      | none =>
          refine ⟨name, [noAlias package.path name], ⟨?_, ?_, ?_⟩, ?_⟩
          · simp [inquire, inquireName, Inquiry.run, halias]
          · simp [inquire, inquireName, Inquiry.asked, packages, halias]
          · simp [inquire, inquireName, Inquiry.run, halias]
          · have hpackages : withoutAlias aliasOf (named (some package) name).packages =
                [package] := by
              simp [withoutAlias, packages, halias]
            rw [hpackages]
            exact .cons ⟨name, .self, rfl⟩ .nil
      | some localName =>
          refine ⟨if localName = "" then name else localName ++ "." ++ name, [], ⟨?_, ?_, ?_⟩, ?_⟩
          · simp [inquire, inquireName, Inquiry.run, halias]
          · simp [inquire, inquireName, Inquiry.asked, packages, halias]
          · simp [inquire, inquireName, Inquiry.run, halias]
          · simp [withoutAlias, packages, halias]

/-- Parameters ask and report what their types do, one after the other. -/
theorem asksForPackages_params {params : List (Param TypeExpr)}
    (h : ∀ p ∈ params, p.type.AsksForPackages aliasOf) : ∃ texts events,
      (inquireParams params).Yields aliasOf texts ((paramsPackages params).map (·.path)) events ∧
        List.Forall₂ (fun package event => ∃ p ∈ params, p.type.Misses package event)
          (withoutAlias aliasOf (paramsPackages params)) events := by
  induction params with
  | nil => exact ⟨[], [], Inquiry.yields_pure [], .nil⟩
  | cons p ps ih =>
      rw [List.forall_mem_cons] at h
      rcases h.1 with ⟨text, events, hyields, hreports⟩
      rcases ih h.2 with ⟨texts, more, hyields', hreports'⟩
      have hparam := hyields.map (paramText p)
      rw [← inquireParam_eq] at hparam
      -- The packages of the first parameter come before those of the others.
      have hpackages : paramsPackages (p :: ps) = p.type.packages ++ paramsPackages ps := by
        rw [paramsPackages, paramPackages]
      refine ⟨paramText p text :: texts, events ++ more, ?_, ?_⟩
      · rw [hpackages, List.map_append, inquireParams]
        exact hparam.bind (hyields'.map (paramText p text :: ·))
      · rw [hpackages, withoutAlias, List.filter_append]
        refine List.rel_append ?_ ?_
        · exact hreports.imp fun _ _ hreport => ⟨p, List.mem_cons_self, hreport⟩
        · refine hreports'.imp fun _ _ hreport => ?_
          exact hreport.imp fun q hq => ⟨List.mem_cons_of_mem p hq.1, hq.2⟩

/-- A type that can be printed asks for its packages, in order and with repetitions,
    and reports those without an alias. -/
theorem asksForPackages_of_wellMarked (aliasOf : String → Option String) {n : TypeExpr}
    (h : n.WellMarked) : n.AsksForPackages aliasOf := by
  induction n using inductOn with
  | predeclared name => exact ⟨name, [], Inquiry.yields_pure name, .nil⟩
  | named package name => exact asksForPackages_named package name
  | pointer elem ih => exact (ih (everywhere_pointer.mp h).2).around rfl rfl (.pointer .self)
  | slice elem ih => exact (ih (everywhere_slice.mp h).2).around rfl rfl (.slice .self)
  | array len elem ih => exact (ih (everywhere_array.mp h).2).around rfl rfl (.array .self)
  | channel dir elem ih =>
      exact (ih (everywhere_channel.mp h).2).around (f := fun text => channelMark dir ++
        if needsParens dir elem then "(" ++ text ++ ")" else text) rfl rfl (.channel .self)
  | map key value ihKey ihValue =>
      -- The key is printed before the value, so its questions and reports come first.
      rcases everywhere_map.mp h with ⟨-, hkey, hvalue⟩
      rcases ihKey hkey with ⟨text, events, hyields, hreports⟩
      rcases ihValue hvalue with ⟨text', more, hyields', hreports'⟩
      refine ⟨"map[" ++ text ++ "]" ++ text', events ++ more, ?_, ?_⟩
      · rw [packages, List.map_append, inquire]
        exact hyields.bind (hyields'.map ("map[" ++ text ++ "]" ++ ·))
      · rw [packages, withoutAlias, List.filter_append]
        exact List.rel_append (hreports.imp fun _ _ hreport => hreport.whole (.key .self))
          (hreports'.imp fun _ _ hreport => hreport.whole (.value .self))
  | func inputs outputs ihIn ihOut =>
      -- Without a misplaced mark the parameters are printed, and then the results.
      rcases everywhere_func.mp h with ⟨hmarks, hin, hout⟩
      rcases asksForPackages_params fun p hp => ihIn p hp (hin p hp) with
        ⟨texts, events, hyields, hreports⟩
      rcases asksForPackages_params fun p hp => ihOut p hp (hout p hp) with
        ⟨texts', more, hyields', hreports'⟩
      refine ⟨"func(" ++ ", ".intercalate texts ++ ")" ++ resultsText outputs texts',
        events ++ more, ?_, ?_⟩
      · rw [packages, List.map_append, inquire,
          (misplacedVariadic?_eq_none_iff inputs outputs).mpr hmarks]
        exact hyields.bind (hyields'.map
          ("func(" ++ ", ".intercalate texts ++ ")" ++ resultsText outputs ·))
      · rw [packages, withoutAlias, List.filter_append]
        refine List.rel_append (hreports.imp fun _ _ hreport => ?_)
          (hreports'.imp fun _ _ hreport => ?_)
        · rcases hreport with ⟨p, hp, hreport⟩
          exact hreport.whole (.input hp .self)
        · rcases hreport with ⟨p, hp, hreport⟩
          exact hreport.whole (.output hp .self)

end Answers

/-- What the printer of a type that can be printed looks up are the packages of the
    type, in order and with repetitions. Those that the table has no alias for are
    reported, which with an empty table are all of them. -/
theorem render_asks {n : TypeExpr} {table : AliasTable} {text : String}
    (h : (n.render table).result = .ok text) :
    n.inquire.run table.get? = n.render table ∧
      n.inquire.asked table.get? = n.packages.map (·.path) ∧
      List.Forall₂ n.Misses (n.packages.filter fun p => (table.get? p.path).isNone)
        (n.render table).events ∧
      List.Forall₂ n.Misses n.packages (n.render .empty).events := by
  have hmarks := wellMarked_of_render h
  rcases asksForPackages_of_wellMarked table.get? hmarks with ⟨_, _, hyields, hreports⟩
  rcases asksForPackages_of_wellMarked AliasTable.empty.get? hmarks with
    ⟨_, events', hyields', hreports'⟩
  refine ⟨run_inquire table n, hyields.asked_eq, ?_, ?_⟩
  · rwa [← run_inquire, hyields.events_eq]
  · rw [← run_inquire, hyields'.events_eq]
    -- The empty table has no alias for any path.
    have hall : withoutAlias AliasTable.empty.get? n.packages = n.packages :=
      List.filter_eq_self.mpr fun _ _ => rfl
    rwa [hall] at hreports'

/-- A function with packages in a parameter, in a variadic one and in a result. -/
def handler : TypeExpr :=
  .func [⟨none, .channel .recv (.named (some ⟨"context", "context"⟩) "Context"), false⟩,
      ⟨none, .pointer (.named (some ⟨"net/http", "http"⟩) "Request"), true⟩]
    [⟨none, .slice (.named (some ⟨"encoding/json", "json"⟩) "RawMessage"), false⟩]

/-- A table with an alias for one of the packages. -/
def handlerAliases : AliasTable :=
  AliasTable.empty.insert "net/http" "http"

/-- Three packages are looked up, and two of them are without an alias. -/
theorem render_asks_handler :
    (handler.render handlerAliases).result =
      .ok "func(<-chan Context, ...*http.Request) []RawMessage" ∧
    handler.inquire.asked handlerAliases.get? = ["context", "net/http", "encoding/json"] ∧
    List.Forall₂ handler.Misses [⟨"context", "context"⟩, ⟨"encoding/json", "json"⟩]
      (handler.render handlerAliases).events ∧
    List.Forall₂ handler.Misses handler.packages (handler.render .empty).events := by
  have htext : (handler.render handlerAliases).result =
      .ok "func(<-chan Context, ...*http.Request) []RawMessage" := by decide
  have hwithout : (handler.packages.filter fun p => (handlerAliases.get? p.path).isNone) =
      [⟨"context", "context"⟩, ⟨"encoding/json", "json"⟩] := by decide
  rcases render_asks htext with ⟨-, hasked, hreports, hempty⟩
  rw [hwithout] at hreports
  exact ⟨htext, hasked, hreports, hempty⟩

end TypeExpr

end Go

end FunctionalOptions
