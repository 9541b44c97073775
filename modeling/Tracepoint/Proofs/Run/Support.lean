import Tracepoint.Proofs.Code.Writing
import Tracepoint.Proofs.Probe.Records
import Tracepoint.Proofs.Registry
import Tracepoint.Proofs.Run.Failure
import Tracepoint.Tools.Converter

/-!
# The tracing support in a run

The units of the tracing support are loaded after those of an application, so that they take
the place of what an application ships under their names, and the policy of a run leaves them
alone, as it does the class of the hook. What is written back has them as they were loaded, and
unless a name with a slash leads to their place, so has the assembler (`Pipeline.inject_support`):
no probe ever calls itself. With such a name there may be another unit in the place of the hook
(`Pipeline.exists_probed_hook`).
-/

namespace Tracepoint

/-! ### Injection -/

namespace Injector

variable {i : Injector} {r : Registry} {a : Allocator} {x : List ProbeRecord × InjectionReport}

theorem names_inject (done : (i.inject r a).result = .ok x) :
    (i.inject r a).registry.names = r.names := by
  obtain ⟨units, q, sweeps, left⟩ := sweeps_of_inject done
  have names := sweeps.map_eq fun u p u' q done => congrArg CodeUnit.name (outline_probeUnit done)
  rw [left]
  exact names

/-- A unit that the policy leaves alone as a whole is left as it was. -/
theorem mem_units_inject (done : (i.inject r a).result = .ok x) {u : CodeUnit}
    (loaded : u ∈ r.units) (alone : i.policy.unitDecision? u.name ≠ none) :
    u ∈ (i.inject r a).registry.units := by
  obtain ⟨units, q, sweeps, left⟩ := sweeps_of_inject done
  obtain ⟨k, place⟩ := List.getElem?_of_mem loaded
  obtain ⟨p, u', q', step, place'⟩ := sweeps.exists_step place
  obtain ⟨d, decided⟩ := Option.ne_none_iff_exists'.mp alone
  rw [probeUnit, decided] at step
  cases step
  rw [left]
  exact List.mem_of_getElem? place'

end Injector

namespace Pipeline

variable {s : InstrumentationSettings} {supply : Nat → BitVec 128} {ns : Option String}
  {r r' : Registry} {records : List ProbeRecord} {report : InjectionReport} {name : String}

/-- The policy of a run leaves the tracing support and the class of the hook alone. -/
theorem unitDecision?_policy (s : InstrumentationSettings) {support : List String}
    (ns : Option String) (helper : name ∈ support ∨ name = s.hookClass) :
    (policy s support ns).unitDecision? name ≠ none := by
  have listed : (policy s support ns).isHelper name = true := by
    have helpers : (policy s support ns).helpers = s.helperUnits ++ support ++ [s.hookClass] := by
      cases narrow : s.scopedToApp <;> cases ns <;>
        simp [policy, narrow, Policy.scopedTo, Policy.withScope]
    simp [Policy.isHelper, helpers, helper]
  rw [Policy.unitDecision?, listed]
  simp

/-- What is injected into fresh code is a hook that the code declares, and the units of the
tracing support and of the hook stay as they were. -/
theorem instrument_eq_ok (fresh : r.hook = none)
    (done : instrument s supply ns r = .ok (r', records, report)) :
    r'.names = r.names ∧
      (∀ u ∈ r.units, u.name ∈ r.support ∨ u.name = s.hookClass → u ∈ r'.units) ∧
      ∃ u m, r.unit? s.hookClass = some u ∧ u.methodNamed? s.hookMethod = some m := by
  rw [instrument] at done
  split at done
  · cases done
  rename_i hook r₀ resolved
  obtain ⟨units, -, support⟩ := Hook.frame_resolve resolved
  obtain ⟨u, m, unit, declared, -⟩ := Hook.resolve_eq_ok fresh resolved
  dsimp only at done
  split at done
  · cases done
  rename_i x injected
  cases done
  refine ⟨?_, fun u loaded helper => ?_, u, m, unit, declared⟩
  · rw [Injector.names_inject injected, Registry.names, Registry.names, units]
  · rw [← units] at loaded
    rw [← support] at helper
    exact Injector.mem_units_inject injected loaded (unitDecision?_policy s ns helper)

end Pipeline

/-! ### Loading -/

namespace Converter

variable {σ : Type} {c : Converter} {programs : Programs σ}

/-- What is disassembled are the documents that the disassembler leaves. -/
theorem disassemble_eq_ok {archive work : Path} {units : List CodeUnit} {w w' : World σ}
    (done : c.disassemble programs archive work w = .ok units w') :
    UnitDirectory.Holds w'.host (Path.join work "ir") units := by
  obtain ⟨_, _, -, rest⟩ := bind_eq_ok_iff.mp done
  obtain ⟨_, w₁, -, rest⟩ := bind_eq_ok_iff.mp rest
  obtain ⟨read, w₂, lifted, rest⟩ := bind_eq_ok_iff.mp rest
  obtain ⟨h, asked, rfl⟩ := onWorld_eq_ok_iff.mp lifted
  obtain ⟨holds, rfl⟩ := UnitDirectory.read_eq_ok_iff.mp asked
  split at rest
  · cases rest
  · cases rest
    exact holds

/-- The units of the tracing support are those that the documents in its directory hold, if it has
one. -/
def Supports (c : Converter) (h : Host) (units : List CodeUnit) : Prop :=
  match c.supportDir with
  | some dir => UnitDirectory.Holds h dir units
  | none => units = []

theorem supportUnits_eq_ok_iff {h h' : Host} {units : List CodeUnit} :
    c.supportUnits h = .ok units h' ↔ c.Supports h units ∧ h' = h := by
  rw [supportUnits, Supports]
  cases c.supportDir with
  | some dir => exact UnitDirectory.read_eq_ok_iff
  | none => exact ⟨fun done => by cases done; exact ⟨rfl, rfl⟩, by rintro ⟨rfl, rfl⟩; rfl⟩

/-- The documents of an archive are loaded first, and then those of the tracing support. -/
theorem load_eq_ok {archive work : Path} {l l' : Loading σ}
    (done : c.load programs archive work l = .ok () l') :
    ∃ units support, c.disassemble programs archive work l.world = .ok units l'.world ∧
      c.Supports l'.world.host support ∧
      l'.registry = support.foldl .addSupport (units.foldl .add l.registry) := by
  obtain ⟨units, l₁, asked, rest⟩ := bind_eq_ok_iff.mp done
  obtain ⟨w, disassembled, rfl⟩ := onLoading_eq_ok_iff.mp asked
  obtain ⟨_, l₂, added, rest⟩ := bind_eq_ok_iff.mp rest
  cases added
  obtain ⟨support, l₃, asked, rest⟩ := bind_eq_ok_iff.mp rest
  obtain ⟨w', onWorld, rfl⟩ := onLoading_eq_ok_iff.mp asked
  obtain ⟨h, read, rfl⟩ := onWorld_eq_ok_iff.mp onWorld
  obtain ⟨supports, rfl⟩ := supportUnits_eq_ok_iff.mp read
  cases rest
  exact ⟨units, support, disassembled, supports, rfl⟩

/-! ### Writing back -/

/-- The documents of some units were written in a world, and the assembler was started on the host
that they left. -/
structure HandsOver (c : Converter) (programs : Programs σ) (units : List CodeUnit)
    (archive work : Path) (w : World σ) (h : Host) (w' : World σ) : Prop where
  written : ∃ mid, UnitDirectory.write (Path.join work "ir-instrumented") units w.host =
    .ok () mid ∧ makeDir (Path.join work "assembled") mid = .ok () h
  assembled : command programs .injecting archive
    (Template.expand c.assembler (Path.join work "ir-instrumented")
      (Path.join (Path.join work "assembled") (Path.displayName archive)) archive)
    { w with host := h } = .ok () w'

theorem handsOver_of_assemble {archive work output : Path} {r : Registry} {w w' : World σ}
    (done : c.assemble programs r archive work w = .ok output w') :
    ∃ h, c.HandsOver programs r.units archive work w h w' := by
  obtain ⟨_, w₁, lifted, rest⟩ := bind_eq_ok_iff.mp done
  obtain ⟨mid, written, rfl⟩ := onWorld_eq_ok_iff.mp lifted
  obtain ⟨_, w₂, lifted, rest⟩ := bind_eq_ok_iff.mp rest
  obtain ⟨h, made, rfl⟩ := onWorld_eq_ok_iff.mp lifted
  obtain ⟨_, w₃, assembled, rest⟩ := bind_eq_ok_iff.mp rest
  obtain ⟨_, w₄, lifted, rest⟩ := bind_eq_ok_iff.mp rest
  obtain ⟨_, required, rfl⟩ := onWorld_eq_ok_iff.mp lifted
  obtain rfl := (requireOutput_eq_ok required).2
  cases rest
  exact ⟨h, ⟨mid, written, made⟩, assembled⟩

/-- The assembler finds the documents of units of distinct names. -/
theorem HandsOver.documented {units : List CodeUnit} {archive work : Path} {w w' : World σ}
    {h : Host} (given : c.HandsOver programs units archive work w h w')
    (distinct : (units.map CodeUnit.name).Nodup) :
    UnitDirectory.Documented h w.host.workingDir (Path.join work "ir-instrumented") units := by
  obtain ⟨mid, written, made⟩ := given.written
  have received := FileAction.receives_left_createDirAll (Path.join work "assembled") mid
  rw [left_of_ok (adaptExcept_eq_ok_iff.mp made)] at received
  exact (UnitDirectory.documented_of_write written distinct).of_content? fun _ =>
    received.content? List.not_mem_nil

end Converter

namespace Pipeline

variable {σ : Type} {p : Pipeline σ} {c : Converter} {programs : Programs σ}
  {supply : Nat → BitVec 128} {ns : Option String} {rebuilt work : Path} {r : Registry}
  {s s' : Session σ}

theorem load_eq_ok (backend : p.backend = c.backend programs)
    (done : p.load rebuilt work s = .ok r s') :
    ∃ units support, c.disassemble programs rebuilt work s.world = .ok units s'.world ∧
      c.Supports s'.world.host support ∧ r = .loaded units support := by
  obtain ⟨_, _, entered, rest⟩ := bind_eq_ok_iff.mp done
  cases entered
  obtain ⟨w', read, rfl⟩ := onSession_eq_ok_iff.mp rest
  rw [backend, Load.registry] at read
  split at read
  · rename_i l filled
    cases read
    exact Converter.load_eq_ok filled
  · cases read

/-- What is written back of an application and its tracing support, after probes were put into
it. -/
structure KeepsSupport (s : InstrumentationSettings) (units support written : List CodeUnit) :
    Prop where
  /-- One unit is written for each name that was loaded. -/
  distinct : (written.map CodeUnit.name).Nodup
  names : ∀ name, name ∈ written.map CodeUnit.name ↔ name ∈ (units ++ support).map CodeUnit.name
  /-- Under a name of the support that is its last unit, as it was loaded. -/
  helpers : ∀ name ∈ support.map CodeUnit.name,
    ∃ u ∈ written, support.reverse.find? (fun u => u.name = name) = some u
  /-- The class of the hook is as it was loaded, and has the method that probes call. -/
  hook : ∃ u ∈ written, (units ++ support).reverse.find? (fun u => u.name = s.hookClass) = some u ∧
    ∃ m, u.methodNamed? s.hookMethod = some m

/-- Code that was loaded keeps its tracing support when probes are put into it. -/
theorem keepsSupport_instrument {s : InstrumentationSettings} {units support : List CodeUnit}
    {written : Registry} {x : List ProbeRecord × InjectionReport}
    (done : instrument s supply ns (.loaded units support) = .ok (written, x)) :
    KeepsSupport s units support written.units := by
  obtain ⟨names, untouched, u, m, declared, found⟩ := instrument_eq_ok Registry.hook_loaded done
  have kept {name : String} (helper : name ∈ support.map CodeUnit.name ∨ name = s.hookClass)
      {v : CodeUnit} (last : (Registry.loaded units support).unit? name = some v) :
      v ∈ written.units := by
    obtain ⟨there, rfl⟩ := Registry.indexed_loaded.unit?_eq_some_iff.mp last
    exact untouched v there (helper.imp_left Registry.mem_support_loaded.mpr)
  constructor
  case distinct =>
    rw [← Registry.names, names]
    exact Registry.indexed_loaded.nodup_names
  case names =>
    intro name
    rw [← Registry.mem_names_loaded, ← names, Registry.names]
  case helpers =>
    intro name helper
    obtain ⟨v, last⟩ := Option.isSome_iff_exists.mp
      (List.find?_isSome.mpr (by simpa using List.mem_map.mp helper) :
        (support.reverse.find? fun u => u.name = name).isSome)
    refine ⟨v, kept (.inl helper) ?_, last⟩
    rw [Registry.unit?_loaded, List.reverse_append, List.find?_append, last, Option.some_or]
  case hook => exact ⟨u, kept (.inr rfl) declared, Registry.unit?_loaded ▸ declared, m, found⟩

/-- **Injection leaves the tracing support as it was loaded**: what is written back has, under each
name that a document of the support declares, the unit of the last such document, whatever an
application ships under that name, and the class of the hook is as it was loaded. The assembler
finds the document of a unit where it was written, unless the name of a unit that is written later
leads to the same place, which takes a slash in one of the names. -/
theorem inject_support (backend : p.backend = c.backend programs)
    {x : Path × List ProbeRecord × InjectionReport} {s₁ s₂ : Session σ}
    (loaded : p.load rebuilt work s = .ok r s₁)
    (injected : p.inject supply ns r rebuilt work s₁ = .ok x s₂) :
    ∃ units support written h,
      c.disassemble programs rebuilt work s.world = .ok units s₁.world ∧
      UnitDirectory.Holds s₁.world.host (Path.join work "ir") units ∧
      c.Supports s₁.world.host support ∧ r = .loaded units support ∧
      instrument p.settings supply ns r = .ok (written, x.2) ∧
      KeepsSupport p.settings units support written.units ∧
      c.HandsOver programs written.units rebuilt work s₁.world h s₂.world ∧
      UnitDirectory.Documented h s₁.world.host.workingDir (Path.join work "ir-instrumented")
        written.units := by
  obtain ⟨units, support, disassembled, supports, rfl⟩ := load_eq_ok backend loaded
  obtain ⟨written, instrumented, assembled⟩ := inject_eq_ok injected
  rw [backend] at assembled
  obtain ⟨h, given⟩ := Converter.handsOver_of_assemble assembled
  have kept := keepsSupport_instrument instrumented
  exact ⟨units, support, written, h, disassembled, Converter.disassemble_eq_ok disassembled,
    supports, rfl, instrumented, kept, given, given.documented kept.distinct⟩

end Pipeline

/-! ### Samples -/

namespace CodeUnit

/-- The tracing support: the class of the hook. -/
def bundled : CodeUnit :=
  Hook.declaration Hook.defaultOwner Hook.defaultMethod

/-- A unit that an application ships under some name. -/
def shipped (name : String) : CodeUnit :=
  ⟨name, [⟨"f", [], .void, some .sample⟩]⟩

theorem labelled_bundled : ∀ m ∈ bundled.methods, m.Labelled := by
  intro m member b body
  obtain rfl := List.mem_singleton.mp member
  cases body
  exact (Body.Built.empty.push _).labelled

theorem labelled_shipped (name : String) : ∀ m ∈ (shipped name).methods, m.Labelled := by
  intro m member b body
  obtain rfl := List.mem_singleton.mp member
  cases body
  exact Body.built_sample.labelled

end CodeUnit

open CodeUnit (bundled shipped)

/-- A host with the documents of an application of two units, and of its tracing support. -/
def Host.converted (first second : String) : Host where
  files :=
    { entries :=
        [([], .dir 0), (["work"], .dir 0), (["support"], .dir 0), (["work", "ir"], .dir 0),
          (["support", "hook.json"], .file bundled.document.toUTF8 1),
          (["work", "ir", "main.json"], .file (shipped first).document.toUTF8 2),
          (["work", "ir", "own.json"], .file (shipped second).document.toUTF8 2),
          (["work", "assembled"], .dir 0), (["work", "assembled", "app.apk"], .file .empty 3)]
      distinct := by simp }
  workingDir := []
  tempDir := "/work"
  home := none
  now := 4

/-- Programs that are done as soon as they are asked for. -/
def Programs.idle : Programs Unit :=
  fun _ _ => return .exited 0 .empty

/-- A converter with a directory of tracing support. -/
def Converter.sample : Converter :=
  ⟨["dex2ir"], ["ir2dex"], some "/support"⟩

variable (first second : String)

theorem Converter.disassemble_converted :
    sample.disassemble .idle "/app.apk" "/work" ⟨.converted first second, ()⟩ =
      .ok [(shipped first).resumed, (shipped second).resumed] ⟨.converted first second, ()⟩ := by
  have holds : UnitDirectory.Holds (.converted first second) "/work/ir"
      [(shipped first).resumed, (shipped second).resumed] := by
    apply UnitDirectory.Holds.of_sorted ["main.json", "own.json"] rfl
    · decide
    · decide
    · exact .cons (.of_document (CodeUnit.labelled_shipped first) rfl)
        (.cons (.of_document (CodeUnit.labelled_shipped second) rfl) .nil)
  have read := UnitDirectory.read_eq_ok_iff.mpr ⟨holds, rfl⟩
  refine bind_eq_ok_iff.mpr ⟨(), ⟨.converted first second, ()⟩, rfl, ?_⟩
  refine bind_eq_ok_iff.mpr ⟨(), ⟨.converted first second, ()⟩, rfl, ?_⟩
  exact bind_eq_ok_iff.mpr ⟨_, _, onWorld_eq_ok_iff.mpr ⟨_, read, rfl⟩, rfl⟩

theorem Converter.supports_converted :
    sample.Supports (.converted first second) [bundled.resumed] := by
  apply UnitDirectory.Holds.of_sorted ["hook.json"] rfl
  · decide
  · decide
  · exact .cons (.of_document CodeUnit.labelled_bundled rfl) .nil

/-- What is loaded of an application of two units and its tracing support. -/
def Registry.converted : Registry :=
  .loaded [(shipped first).resumed, (shipped second).resumed] [bundled.resumed]

/-- A run on such a host, after the code was loaded. -/
def Session.converted : Session Unit :=
  ⟨⟨.converted first second, ()⟩, [.loading]⟩

namespace Pipeline

/-- The sample pipeline with a converter. -/
def converting : Pipeline Unit :=
  { sample .lax with backend := Converter.sample.backend .idle }

theorem load_converting :
    converting.load "/app.apk" "/work" ⟨⟨.converted first second, ()⟩, []⟩ =
      .ok (.converted first second) (.converted first second) := by
  have loaded : Converter.sample.load .idle "/app.apk" "/work"
      ⟨⟨.converted first second, ()⟩, .empty⟩ =
      .ok () ⟨⟨.converted first second, ()⟩, .converted first second⟩ := by
    have disassembled := Converter.disassemble_converted first second
    have support : (Converter.sample.supportUnits : Run Unit _) ⟨.converted first second, ()⟩ =
        .ok [bundled.resumed] ⟨.converted first second, ()⟩ :=
      onWorld_eq_ok_iff.mpr ⟨_, Converter.supportUnits_eq_ok_iff.mpr
        ⟨Converter.supports_converted first second, rfl⟩, rfl⟩
    refine bind_eq_ok_iff.mpr ⟨_, _, onLoading_eq_ok_iff.mpr ⟨_, disassembled, rfl⟩, ?_⟩
    refine bind_eq_ok_iff.mpr ⟨(), _, rfl, ?_⟩
    exact bind_eq_ok_iff.mpr ⟨_, _, onLoading_eq_ok_iff.mpr ⟨_, support, rfl⟩, rfl⟩
  refine bind_eq_ok_iff.mpr
    ⟨(), _, rfl, onSession_eq_ok_iff.mpr ⟨⟨.converted first second, ()⟩, ?_, rfl⟩⟩
  show Load.registry (Converter.sample.load .idle "/app.apk" "/work") _ = _
  rw [Load.registry, loaded]

/-- The class of the hook is the one of the tracing support, though the application ships another
one, and the assembler finds it under its name; four probes are put into the rest. -/
theorem inject_support_shadowing :
    converting.load "/app.apk" "/work" ⟨⟨.converted "a.B" Hook.defaultOwner, ()⟩, []⟩ =
      .ok (.converted "a.B" Hook.defaultOwner) (.converted "a.B" Hook.defaultOwner) ∧
    ∃ x s written h,
      converting.inject (fun _ => 0) none (.converted "a.B" Hook.defaultOwner) "/app.apk" "/work"
        (.converted "a.B" Hook.defaultOwner) = .ok x s ∧
      x.2.1.length = 4 ∧
      KeepsSupport {} [(shipped "a.B").resumed, (shipped Hook.defaultOwner).resumed]
        [bundled.resumed] written ∧
      Converter.sample.HandsOver .idle written "/app.apk" "/work"
        (Session.converted "a.B" Hook.defaultOwner).world h s.world ∧
      ∀ u ∈ written, h.files.content? (UnitDirectory.documentPlace [] "/work/ir-instrumented" u) =
        some u.document.toUTF8 := by
  have loaded := load_converting "a.B" Hook.defaultOwner
  have probed : succeeds (fun x _ => x.2.1.length == 4)
      (converting.inject (fun _ => 0) none (.converted "a.B" Hook.defaultOwner) "/app.apk" "/work"
        (.converted "a.B" Hook.defaultOwner)) := by
    decide +kernel
  obtain ⟨x, s, injected, probed⟩ := exists_of_succeeds probed
  obtain ⟨units, support, written, h, disassembled, -, supports, -, -, kept, given, documented⟩ :=
    inject_support (c := .sample) rfl loaded injected
  rw [Converter.disassemble_converted] at disassembled
  cases disassembled
  have read := Converter.supportUnits_eq_ok_iff.mpr ⟨supports, rfl⟩
  have read' := Converter.supportUnits_eq_ok_iff.mpr
    ⟨Converter.supports_converted "a.B" Hook.defaultOwner, rfl⟩
  cases read.symm.trans read'
  have noSlash : ∀ u ∈ written.units, '/' ∉ u.name.toList := by
    have names : ∀ name ∈ [("a.B" : String), Hook.defaultOwner, Hook.defaultOwner],
        '/' ∉ name.toList := by decide
    exact fun u member => names u.name ((kept.names u.name).mp (List.mem_map_of_mem member))
  exact ⟨loaded, x, s, written.units, h, injected, by simpa using probed, kept, given,
    documented.plain noSlash⟩

/-- A name that leads to the place of the class of the hook. -/
def detour : String :=
  "./" ++ Hook.defaultOwner

/-- **The assembler may find a unit with probes in the place of the hook**: one that the application
ships under a name that leads there too. -/
theorem exists_probed_hook :
    converting.load "/app.apk" "/work" ⟨⟨.converted Hook.defaultOwner detour, ()⟩, []⟩ =
      .ok (.converted Hook.defaultOwner detour) (.converted Hook.defaultOwner detour) ∧
    Converter.sample.Supports (.converted Hook.defaultOwner detour) [bundled.resumed] ∧
    ∃ x s written h, ∃ v : CodeUnit,
      converting.inject (fun _ => 0) none (.converted Hook.defaultOwner detour) "/app.apk" "/work"
        (.converted Hook.defaultOwner detour) = .ok x s ∧
      instrument converting.settings (fun _ => 0) none (.converted Hook.defaultOwner detour) =
        .ok (written, x.2) ∧
      Converter.sample.HandsOver .idle written.units "/app.apk" "/work"
        (Session.converted Hook.defaultOwner detour).world h s.world ∧
      h.files.content? (UnitDirectory.documentPlace [] "/work/ir-instrumented" bundled.resumed) =
        some v.document.toUTF8 ∧
      v.name ≠ bundled.resumed.name ∧
      ∃ m ∈ v.methods, ∃ b ∈ m.body, ∃ c ∈ b.statements, Injector.sample.hook.isCall c.code := by
  have ran : succeeds (fun _ _ => true)
      (converting.inject (fun _ => 0) none (.converted Hook.defaultOwner detour) "/app.apk" "/work"
        (.converted Hook.defaultOwner detour)) := by
    decide +kernel
  have probed : (match instrument converting.settings (fun _ => 0) none
      (.converted Hook.defaultOwner detour) with
    | .ok (written, _) => written.units.getLast?.any fun v => v.name = detour ∧
        v.methods.any fun m => m.body.any fun b => b.statements.any fun c =>
          Injector.sample.hook.isCall c.code
    | .error _ => false) = true := by
    decide +kernel
  obtain ⟨x, s, injected, -⟩ := exists_of_succeeds ran
  obtain ⟨written, instrumented, assembled⟩ := inject_eq_ok injected
  obtain ⟨h, given⟩ := Converter.handsOver_of_assemble (c := .sample) assembled
  rw [instrumented] at probed
  obtain ⟨v, final, probed⟩ := (Option.any_eq_true _ _).mp probed
  obtain ⟨before, units⟩ := List.getLast?_eq_some_iff.mp final
  simp only [decide_eq_true_eq, List.any_eq_true, Option.any_eq_true] at probed
  obtain ⟨name, call⟩ := probed
  have here : UnitDirectory.documentPlace [] "/work/ir-instrumented" v =
      UnitDirectory.documentPlace [] "/work/ir-instrumented" bundled.resumed := by
    rw [UnitDirectory.documentPlace_congr (v := shipped detour) name]
    decide +kernel
  have documented := given.documented (keepsSupport_instrument instrumented).distinct
  have held := documented.held _ v (units ▸ UnitDirectory.lastAt?_concat here before)
  refine ⟨load_converting _ _, Converter.supports_converted _ _, x, s, written, h, v, injected,
    instrumented, given, held, ?_, ?_⟩
  · rw [name]
    decide
  · simpa [and_assoc] using call

end Pipeline

end Tracepoint
