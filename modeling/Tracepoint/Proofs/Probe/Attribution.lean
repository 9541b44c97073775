import Tracepoint.Proofs.Manifest
import Tracepoint.Proofs.Probe.Identifiers
import Tracepoint.Proofs.Probe.Records

/-!
# Hits are attributed to what their probes guard

A running application reports a hit by the text that the call of the probe passes first, and the
manifest is asked for its location. The records of an injection take the identifiers that the
allocator hands out, in order (`ids_inject`). So if these are distinct, the manifest that is read
back has one entry for each record, under distinct keys, which are the texts that the calls
pass (`inject_attributes`).
-/

namespace Tracepoint

/-- A document lists some records of an artifact: in order, under distinct keys, by which their
locations are found. -/
structure ManifestDocument.Lists (d : ManifestDocument) (artifact : String)
    (records : List ProbeRecord) : Prop where
  artifact : d.artifact = artifact
  entries : d.entries = records.map fun r => (r.id.render, r.location)
  distinct : (d.entries.map Prod.fst).Nodup
  found : ∀ r ∈ records, d.location? r.id.render = some r.location

/-- The document of a manifest lists its records if their identifiers are distinct. -/
theorem Manifest.lists_document {records : List ProbeRecord}
    (distinct : (records.map ProbeRecord.id).Nodup) (artifact : String) :
    (Manifest.document ⟨artifact, records⟩).Lists artifact records := by
  have keys : ((Manifest.document ⟨artifact, records⟩).entries.map Prod.fst).Nodup := by
    have shown := distinct.map ProbeId.render_injective
    rw [List.map_map] at shown
    rwa [document, List.map_map]
  refine ⟨rfl, rfl, keys, fun r member => Json.lookup_of_nodup keys ?_⟩
  exact List.mem_map_of_mem member

/-! ### The identifiers of records -/

/-- The records that a piece of an injection adds take the identifiers that it hands out, one after
the other. -/
def Progress.Draws (p q : Progress) : Prop :=
  ∃ n, q.allocator = p.allocator.advance n ∧
    q.records.map ProbeRecord.id = p.records.map ProbeRecord.id ++ p.allocator.ids n

namespace Progress.Draws

variable {p q t : Progress}

/-- Nothing is drawn where nothing is handed out and nothing recorded. -/
theorem of_eq (allocator : q.allocator = p.allocator) (records : q.records = p.records) :
    p.Draws q :=
  ⟨0, allocator, by rw [records, Allocator.ids, List.append_nil]⟩

theorem trans (first : p.Draws q) (second : q.Draws t) : p.Draws t := by
  obtain ⟨m, handed, drawn⟩ := first
  obtain ⟨n, handed', drawn'⟩ := second
  refine ⟨m + n, ?_, ?_⟩
  · rw [handed', handed, Allocator.advance_add]
  · rw [drawn', drawn, handed, Allocator.ids_add, List.append_assoc]

/-- A record takes the next identifier. -/
theorem record (p : Progress) (location owner : String) :
    p.Draws (({ p with allocator := p.allocator.next.2 } : Progress).record
      ⟨p.allocator.next.1, location, owner⟩) :=
  ⟨1, rfl, by simp [Progress.record, Allocator.ids]⟩

/-- A sweep whose steps draw identifiers draws them one after the other. -/
theorem sweeps {α : Type} {f : α → Progress → α × Progress × Option Fault} {xs ys : List α}
    (h : Sweeps f xs p ys q) (steps : ∀ x p y q, f x p = (y, q, none) → p.Draws q) :
    p.Draws q := by
  induction h with
  | nil p => exact .of_eq rfl rfl
  | cons step later ih => exact (steps _ _ _ _ step).trans ih

end Progress.Draws

namespace Injector

variable {i : Injector} {unit signature : String} {p q : Progress}

theorem draws_probeStatements {turn : List Statement} {b b' : Body}
    (done : i.probeStatements unit signature turn b p = (b', q, none)) : p.Draws q := by
  induction turn generalizing b p with
  | nil =>
    cases done
    exact .of_eq rfl rfl
  | cons s rest ih =>
    rw [probeStatements] at done
    split at done
    · rcases inserted : b.insertBefore (i.hook.call p.allocator.next.1) s.label with ⟨c, _ | l⟩
      · simp [inserted] at done
      · simp only [inserted] at done
        exact (Progress.Draws.record p _ _).trans (ih done)
    · have later := ih done
      exact .trans (.of_eq rfl rfl) later

theorem draws_probeBody {b b' : Body}
    (done : i.probeBody unit signature b p = (b', q, none)) : p.Draws q := by
  rw [probeBody] at done
  split at done
  · cases done
  · rename_i probed
    split at done
    · cases done
    · cases done
      exact (draws_probeStatements probed).trans (.of_eq rfl rfl)

theorem draws_probeMethod {m m' : Method}
    (done : i.probeMethod unit m p = (m', q, none)) : p.Draws q := by
  cases methodStep_of_probeMethod done with
  | bodiless | outside => exact .of_eq rfl rfl
  | through _ _ step => exact draws_probeBody step

theorem draws_probeUnit {u u' : CodeUnit}
    (done : i.probeUnit u p = (u', q, none)) : p.Draws q := by
  cases unitStep_of_probeUnit done with
  | alone => exact .of_eq rfl rfl
  | through _ sweeps => exact .sweeps sweeps fun m p m' q => draws_probeMethod

/-- The records of an injection without a fault take the first identifiers of the allocator. -/
theorem ids_inject {r : Registry} {a : Allocator} {records : List ProbeRecord}
    {report : InjectionReport} (done : (i.inject r a).result = .ok (records, report)) :
    records.map ProbeRecord.id = a.ids records.length := by
  obtain ⟨units, q, sweeps, -, given⟩ := progress_of_inject done
  cases given
  obtain ⟨n, -, drawn⟩ := Progress.Draws.sweeps sweeps fun u p u' q => draws_probeUnit
  have drawn' : q.records.map ProbeRecord.id = a.ids n := drawn
  have count := congrArg List.length drawn'
  rw [List.length_map, Allocator.length_ids] at count
  rw [drawn', count]

/-! ### Attribution -/

/-- A statement that was gained passes the key of an entry first, in a call of the hook. -/
def Passes (i : Injector) (g : Gain) (e : String × String) : Prop :=
  ∃ args, g.gained.code = .invoke i.hook.method (.stringConst e.1 :: args)

/-- **Every hit is attributed to what its probe guards**, if the allocator hands out no identifier
twice, as a counter never does before it comes round. -/
theorem inject_attributes {r : Registry} {a : Allocator} {records : List ProbeRecord}
    {report : InjectionReport} (built : r.Built)
    (done : (i.inject r a).result = .ok (records, report)) :
    (∀ start n, n ≤ 2 ^ 64 → ((Allocator.counter start).ids n).Nodup) ∧
      ((a.ids records.length).Nodup → ∀ artifact,
        ∃ d, ManifestDocument.ofText (Manifest.document ⟨artifact, records⟩).text = .ok d ∧
          d.Lists artifact records ∧
          List.Forall₂ i.Passes (r.gains (i.inject r a).registry) d.entries) := by
  refine ⟨fun start n => Allocator.nodup_ids_counter start, fun distinct artifact => ?_⟩
  rw [← ids_inject done] at distinct
  refine ⟨_, ManifestDocument.ofText_text _, Manifest.lists_document distinct artifact, ?_⟩
  obtain ⟨units, q, sweeps, left, given⟩ := progress_of_inject done
  cases given
  obtain ⟨new, added, noted⟩ := sweeps.exists_records
    fun u member p u' q => probeUnit_records (built u member)
  rw [Progress.start, List.nil_append] at added
  rw [left, added]
  refine List.forall₂_map_right_iff.mpr (noted.imp fun g record note => ?_)
  exact ⟨_, note.call⟩

theorem inject_attributes_mixed : ∃ records report d,
    (Injector.scoped.inject .mixed (.counter 7)).result = .ok (records, report) ∧
      ((Allocator.counter 7).ids records.length).Nodup ∧
      ManifestDocument.ofText (Manifest.document ⟨"app.apk", records⟩).text = .ok d ∧
      d.Lists "app.apk" records ∧ d.entries.map Prod.fst = ["7", "8", "9", "10"] ∧
      List.Forall₂ Injector.scoped.Passes
        (Registry.mixed.gains (Injector.scoped.inject .mixed (.counter 7)).registry) d.entries := by
  obtain ⟨counters, attributes⟩ := inject_attributes (i := .scoped) (a := .counter 7)
    Registry.built_mixed rfl
  have distinct := counters 7 4 (by decide)
  obtain ⟨d, read, lists, passes⟩ := attributes distinct "app.apk"
  refine ⟨_, _, d, rfl, distinct, read, lists, ?_, passes⟩
  rw [lists.entries]
  rfl

end Injector

end Tracepoint
