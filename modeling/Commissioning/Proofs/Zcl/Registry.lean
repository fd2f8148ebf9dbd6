import Commissioning.Proofs.Service.Footprint
import Commissioning.Zcl.Registry

/-!
What the definitions of the clusters say. Names tell the attributes of a definition apart, and so do
numbers if the manufacturer's code is added to them, so a name leads to one attribute. The definitions
cover what is read: whatever a service reads, beyond the firmware, is defined on its cluster with the
code that it is read with.
-/
namespace Commissioning

namespace Zcl
open ClusterDefinition
variable {label name : String} {d : ClusterDefinition} {a : AttributeDefinition}

theorem nodup_labels : (all.map ClusterDefinition.label).Nodup := by decide

theorem nodup_names : ∀ d ∈ all, (d.attributes.map AttributeDefinition.name).Nodup := by decide

theorem nodup_numbers :
    ∀ d ∈ all, (d.attributes.map fun a => (a.id, a.manufacturer)).Nodup := by decide

theorem ofLabel?_eq_some : ofLabel? label = some d ↔ d ∈ all ∧ d.label = label :=
  find?_eq_some_of_nodup nodup_labels

theorem attribute?_eq_some (hd : d ∈ all) :
    d.attribute? name = some a ↔ a ∈ d.attributes ∧ a.name = name :=
  find?_eq_some_of_nodup (nodup_names d hd)

/-- A name gives the attribute that has it, on the definition of the label. -/
theorem findAttribute_eq_ok : findAttribute label name = .ok (d, a) ↔
    (d ∈ all ∧ d.label = label) ∧ a ∈ d.attributes ∧ a.name = name := by
  have hfound : findAttribute label name = .ok (d, a) ↔
      ofLabel? label = some d ∧ d.attribute? name = some a := by
    constructor
    · intro h
      unfold findAttribute at h
      split at h
      · cases h
      · next hd =>
        split at h
        · cases h
        · next ha =>
          cases h
          exact ⟨hd, ha⟩
    · rintro ⟨hd, ha⟩
      simp only [findAttribute, hd, ha]
  rw [hfound, ofLabel?_eq_some]
  exact and_congr_right fun hd => attribute?_eq_some hd.1

/-- A read asks for attributes of one definition, with the code that they are defined with. Standard
clusters have no definition here. -/
def IsDefined : Request → Prop
  | .read c names m => c = .basic ∨ ∃ d ∈ all, d.id = c.id ∧
      ∀ name ∈ names, ∃ a ∈ d.attributes, a.name = name ∧ a.manufacturer = m
  | _ => True

end Zcl

/-! ### What services read -/

open Zcl

theorem Covering.isDefined {q : Request} (h : Asks q) : IsDefined q := by
  rcases h with ⟨h⟩ | ⟨h⟩
  · cases h with
    | findMode => exact .inr (by decide)
    | poll => exact .inr (by decide)
    | _ => trivial
  · cases h <;> exact .inr (by decide)

theorem Dimmer.isDefined {q : Request} (h : Asks q) : IsDefined q := by
  rcases h with _ | _ | ⟨h⟩
  · trivial
  · trivial
  · cases h with
    | setup hname =>
      simp only [List.mem_cons, List.not_mem_nil, or_false] at hname
      rcases hname with rfl | rfl | rfl
      all_goals exact .inr (by decide)
    | level => exact .inr (by decide)

theorem DeviceSetup.ArrayRequest.isDefined {W : ArrayWrite → Prop} {q : Request}
    (h : ArrayRequest W q) : IsDefined q := by
  cases h with
  | read t => cases t <;> exact .inr (by decide)
  | plain => trivial
  | structured => trivial

theorem Service.Asks.isDefined {x : Service} {q : Request} (h : x.Asks q) : IsDefined q := by
  cases h with
  | configureCovering h => exact Covering.isDefined h
  | readCovering h => exact Covering.isDefined (.report h)
  | configureDeviceSetup h =>
    cases h with
    | build => exact .inl rfl
    | array h => exact h.isDefined
  | readDeviceSetup h => exact h.isDefined
  | configureDimmer h => exact Dimmer.isDefined h
  | readDimmer h => exact Dimmer.isDefined (.setting h)

/-- Whatever the job of a call reads beyond the firmware is found in the definitions of the cluster,
with the code that it is read with. -/
theorem Service.reads_defined {x : Service} {data : Value} {h : Hub} {g : Bool} {j : Job}
    (hj : (x.job data h g).outcome = .ok j) {verbose : Bool} {now finish : Nat} {t : List Exchange}
    {r : Except Stop Entries} (hrun : Procedure.Runs (j.purpose.procedure verbose) now t r finish)
    {y : Exchange} (hy : y ∈ t) {c : Cluster} {names : List String} {m : Option Int}
    (hread : y.request = .read c names m) (hc : c ≠ .basic) :
    ∃ d, d.id = c.id ∧
      ∀ name ∈ names, ∃ a, findAttribute d.label name = .ok (d, a) ∧ a.manufacturer = m := by
  have hasks := (sends_of_job hj verbose).of_runs hrun y hy
  rw [hread] at hasks
  obtain ⟨d, hd, hid, hnames⟩ := hasks.isDefined.resolve_left hc
  refine ⟨d, hid, fun name hname => ?_⟩
  obtain ⟨a, ha, hkey, hm⟩ := hnames name hname
  exact ⟨a, findAttribute_eq_ok.mpr ⟨⟨hd, rfl⟩, ha, hkey⟩, hm⟩

end Commissioning
