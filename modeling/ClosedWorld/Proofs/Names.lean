import ClosedWorld.Proofs.Decoded
import ClosedWorld.Proofs.Provenance

/-!
# One space of names

Functions and globals share one space of names. Additions see to it, since they
look at both lists, and so does preparation, which adds the only symbol that a
run adds. So no step makes a function and a global share a name, and none takes
a name away: after any number of steps two symbols share a name exactly if they
did at the beginning.

A new program has no symbols. A text describes its two lists separately, and
decoding checks each of them for itself. So a program that was read can have a
function and a global of one name, and it keeps them
(`Program.names_edited`).
-/

namespace ClosedWorld

/-- What can be done with a program. -/
inductive Edit where
  | addFunction (f : Func)
  | addGlobal (g : Global)
  | run (c : Config)

namespace Program

/-- A function and a global carry the name. -/
def Shares (p : Program) (name : String) : Prop :=
  name ∈ p.functions.map Func.name ∧ name ∈ p.globals.map Global.name

instance (p : Program) (name : String) : Decidable (p.Shares name) :=
  inferInstanceAs (Decidable (_ ∧ _))

/-- What is left of the program. An addition that fails leaves it as it was. -/
def edit (p : Program) : Edit → Program
  | .addFunction f =>
      match p.addFunction f with
      | .ok q => q
      | .error _ => p
  | .addGlobal g =>
      match p.addGlobal g with
      | .ok q => q
      | .error _ => p
  | .run c => (c.run p).program

/-- What is left after several steps. -/
def edited (p : Program) (es : List Edit) : Program := es.foldl edit p

/-! ## Single steps -/

/-- The program `q` is keyed, and it shares the names that `p` shares. -/
structure KeepsNames (p q : Program) : Prop where
  keyed : q.Keyed
  shares : ∀ name, q.Shares name ↔ p.Shares name

theorem KeepsNames.trans {p p' q : Program} (h : p.KeepsNames p') (h' : p'.KeepsNames q) :
    p.KeepsNames q :=
  ⟨h'.keyed, fun name => (h'.shares name).trans (h.shares name)⟩

section Steps

variable {p q : Program}

theorem addFunction_cases (p : Program) (f : Func) :
    (p.hasName f.name = true ∧ p.addFunction f = .error (.duplicateSymbol f.name)) ∨
      (p.hasName f.name = false ∧
        p.addFunction f = .ok { p with functions := p.functions ++ [f] }) := by
  rw [addFunction]
  cases p.hasName f.name with
  | true => exact Or.inl ⟨rfl, rfl⟩
  | false => exact Or.inr ⟨rfl, rfl⟩

theorem addGlobal_cases (p : Program) (g : Global) :
    (p.hasName g.name = true ∧ p.addGlobal g = .error (.duplicateSymbol g.name)) ∨
      (p.hasName g.name = false ∧
        p.addGlobal g = .ok { p with globals := p.globals ++ [g] }) := by
  rw [addGlobal]
  cases p.hasName g.name with
  | true => exact Or.inl ⟨rfl, rfl⟩
  | false => exact Or.inr ⟨rfl, rfl⟩

theorem keepsNames_functions (hp : p.Keyed) {f : Func} (h : p.hasName f.name = false) :
    p.KeepsNames { p with functions := p.functions ++ [f] } := by
  obtain ⟨hfunction, hglobal⟩ := hasName_eq_false_iff.mp h
  refine ⟨⟨nodup_map_concat hp.1 hfunction, hp.2⟩, fun name => ?_⟩
  rw [Shares, Shares, List.map_append, List.map_singleton, List.mem_append, List.mem_singleton]
  constructor
  · intro ⟨hname, hmem⟩
    exact ⟨hname.resolve_right fun heq => hglobal (heq ▸ hmem), hmem⟩
  · intro ⟨hname, hmem⟩
    exact ⟨Or.inl hname, hmem⟩

theorem keepsNames_globals (hp : p.Keyed) {g : Global} (h : p.hasName g.name = false) :
    p.KeepsNames { p with globals := p.globals ++ [g] } := by
  obtain ⟨hfunction, hglobal⟩ := hasName_eq_false_iff.mp h
  refine ⟨⟨hp.1, nodup_map_concat hp.2 hglobal⟩, fun name => ?_⟩
  rw [Shares, Shares, List.map_append, List.map_singleton, List.mem_append, List.mem_singleton]
  constructor
  · intro ⟨hmem, hname⟩
    exact ⟨hmem, hname.resolve_right fun heq => hfunction (heq ▸ hmem)⟩
  · intro ⟨hmem, hname⟩
    exact ⟨hmem, Or.inl hname⟩

theorem keepsNames_eliminate (hp : p.Keyed) (t : TrustList) : p.KeepsNames (p.eliminate t) := by
  refine ⟨keyed_eliminate hp t, fun name => ?_⟩
  rw [Shares, functionNames_eliminate]
  rfl

/-- The table gets a name that no function has. -/
theorem keepsNames_prepared (hp : p.Keyed) {c : Config} {plan : EntryPlan}
    (h : p.entryPlan c = .ok plan) : p.KeepsNames (p.prepared c plan) := by
  refine ⟨keyed_prepared hp h, fun name => ?_⟩
  obtain ⟨-, -, hunmixed, -⟩ := entryPlan_eq_ok h
  rw [Shares, Shares, functionNames_prepared, globalNames_prepared, List.mem_append]
  refine and_congr_right fun hname => or_iff_left fun htable => ?_
  cases plan with
  | create =>
      rw [List.mem_singleton.mp htable] at hname
      exact function?_eq_none_iff.mp hunmixed hname
  | keep => cases htable

end Steps

/-! ## Runs and sequences of steps -/

theorem keepsNames_run {p : Program} (hp : p.Keyed) (c : Config) :
    p.KeepsNames (c.run p).program :=
  Config.run_preserves (P := p.KeepsNames)
    (fun _ h => h.trans (keepsNames_eliminate h.keyed c.trustList))
    (fun _ _ h hplan => h.trans (keepsNames_prepared h.keyed hplan)) ⟨hp, fun _ => Iff.rfl⟩

theorem keepsNames_edit {p : Program} (hp : p.Keyed) (e : Edit) : p.KeepsNames (p.edit e) := by
  cases e with
  | addFunction f =>
      rw [edit]
      obtain ⟨-, hadd⟩ | ⟨hfree, hadd⟩ := p.addFunction_cases f
      · rw [hadd]
        exact ⟨hp, fun _ => Iff.rfl⟩
      · rw [hadd]
        exact keepsNames_functions hp hfree
  | addGlobal g =>
      rw [edit]
      obtain ⟨-, hadd⟩ | ⟨hfree, hadd⟩ := p.addGlobal_cases g
      · rw [hadd]
        exact ⟨hp, fun _ => Iff.rfl⟩
      · rw [hadd]
        exact keepsNames_globals hp hfree
  | run c => exact keepsNames_run hp c

theorem keepsNames_edited {p : Program} (hp : p.Keyed) (es : List Edit) :
    p.KeepsNames (p.edited es) := by
  induction es generalizing p with
  | nil => exact ⟨hp, fun _ => Iff.rfl⟩
  | cons e es ih =>
      have hfirst : p.KeepsNames (p.edit e) := keepsNames_edit hp e
      exact hfirst.trans (ih hfirst.keyed)

/-- **Names stay apart.** From a new program or one that a text describes, any
steps lead to a program in which every symbol is found under its own name and
under no other. A function and a global of it share a name only if they did so in
the text. An addition fails exactly if its name is taken, and then nothing
happens. -/
theorem names_edited {p : Program}
    (hp : (∃ name, p = { name }) ∨ ∃ text, decode text = .ok p) (es : List Edit) :
    let q := p.edited es
    (∀ name f, q.function? name = some f ↔ f ∈ q.functions ∧ f.name = name) ∧
      (∀ name g, q.global? name = some g ↔ g ∈ q.globals ∧ g.name = name) ∧
      (∀ name, q.Shares name ↔ p.Shares name ∧ ∃ text, decode text = .ok p) ∧
      (∀ f, ((∃ e, q.addFunction f = .error e) ↔ q.hasName f.name = true) ∧
        ∀ e, q.addFunction f = .error e →
          e = .duplicateSymbol f.name ∧ q.edit (.addFunction f) = q) ∧
      ∀ g, ((∃ e, q.addGlobal g = .error e) ↔ q.hasName g.name = true) ∧
        ∀ e, q.addGlobal g = .error e →
          e = .duplicateSymbol g.name ∧ q.edit (.addGlobal g) = q := by
  intro q
  have hkeyed : p.Keyed := by
    rcases hp with ⟨name, rfl⟩ | ⟨text, htext⟩
    · exact ⟨List.nodup_nil, List.nodup_nil⟩
    · exact (decoded_of_decode htext).keyed
  have hkeeps : p.KeepsNames q := keepsNames_edited hkeyed es
  refine ⟨fun name f => hkeeps.keyed.function?_eq_some_iff,
    fun name g => hkeeps.keyed.global?_eq_some_iff, fun name => ?_, fun f => ?_, fun g => ?_⟩
  · rw [hkeeps.shares]
    refine ⟨fun hshares => ⟨hshares, ?_⟩, fun h => h.1⟩
    rcases hp with ⟨name, rfl⟩ | htext
    · exact absurd hshares.1 List.not_mem_nil
    · exact htext
  · obtain ⟨htaken, hadd⟩ | ⟨hfree, hadd⟩ := q.addFunction_cases f
    · rw [edit, hadd]
      exact ⟨iff_of_true ⟨_, rfl⟩ htaken, fun e he => ⟨(Except.error.inj he).symm, rfl⟩⟩
    · rw [hadd, hfree]
      exact ⟨iff_of_false nofun Bool.false_ne_true, nofun⟩
  · obtain ⟨htaken, hadd⟩ | ⟨hfree, hadd⟩ := q.addGlobal_cases g
    · rw [edit, hadd]
      exact ⟨iff_of_true ⟨_, rfl⟩ htaken, fun e he => ⟨(Except.error.inj he).symm, rfl⟩⟩
    · rw [hadd, hfree]
      exact ⟨iff_of_false nofun Bool.false_ne_true, nofun⟩

/-- A global cannot take the name of a function, and a run adds the table. -/
theorem names_edited_new :
    let q := ({ name := "m" } : Program).edited [
      .addFunction { name := "main", ret := .void },
      .addGlobal { name := "main", ty := .int 32 },
      .run {}]
    q.functions.map Func.name = ["main"] ∧ q.globals = [({} : Config).entryTableGlobal] ∧
      (∀ name, ¬ q.Shares name) ∧
      q.edit (.addFunction { name := "main", ret := .void }) = q := by
  intro q
  have hnames : q.functions.map Func.name = ["main"] := by decide +kernel
  have hglobals : q.globals = [({} : Config).entryTableGlobal] := by decide +kernel
  have htaken : q.hasName "main" = true := by decide +kernel
  obtain ⟨-, -, hshares, hfunction, -⟩ :=
    names_edited (p := { name := "m" }) (Or.inl ⟨"m", rfl⟩) [
      .addFunction { name := "main", ret := .void },
      .addGlobal { name := "main", ty := .int 32 },
      .run {}]
  obtain ⟨hfails, hunchanged⟩ := hfunction { name := "main", ret := .void }
  obtain ⟨e, he⟩ := hfails.mpr htaken
  exact ⟨hnames, hglobals, fun name h => List.not_mem_nil ((hshares name).mp h).1.1,
    (hunchanged e he).2⟩

/-- A program with a function and a global of one name. -/
def sharing : Program where
  name := "sharing"
  functions := [{ name := "state", ret := .void }]
  globals := [{ name := "state", ty := .int 32 }]

/-- A text may describe what additions would refuse. -/
theorem shares_of_decode_sharing :
    decode sharing.encode = .ok sharing ∧ sharing.Shares "state" ∧
      ({ sharing with globals := [] }).addGlobal { name := "state", ty := .int 32 } =
        .error (.duplicateSymbol "state") := by
  have hin : sharing.Keyed ∧ sharing.doubles = [] ∧ sharing.toJson.depth ≤ maxDepth := by
    decide +kernel
  refine ⟨?_, by decide, rfl⟩
  rw [decode_encode hin.1 (hin.2.1 ▸ nofun), if_pos hin.2.2]

end Program

end ClosedWorld
