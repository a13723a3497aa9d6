import BehaviorTree.Proofs.Node.Calls
import BehaviorTree.Proofs.Node.Design
import BehaviorTree.Proofs.Node.Snapshot

namespace BehaviorTree

/-!
# What properties mean

The settings of a node of the library are a function of its properties, whatever has happened to it
since it was made.  Each setting is what the last value under its key says, or what a new node has if
there is no such value or it does not fit.

* `Dict.setting` — one setting, read off a dictionary of properties;
* `InnerKind.interpret`, `Builtin.Form.interpret` — all settings of a kind of nodes;
* `Node.setup_operateAll` — properties, calls and changes of the children keep the settings of a node
  what its properties say;
* `Node.setup_of_properties` — so they depend on the last value under each key only.
-/

/-! ### Single settings -/

/-- What is read off the value under a key, or the default if there is none or it does not fit. -/
def Dict.setting {α : Type} (d : Dict PropertyValue) (key : String)
    (read : PropertyValue → Option α) (default : α) : α :=
  ((d.get? key).bind read).getD default

section

variable {α : Type} (d : Dict PropertyValue) (key : String) (value : PropertyValue)
  (read : PropertyValue → Option α) (default : α)

@[simp]
theorem Dict.setting_empty : Dict.empty.setting key read default = default := rfl

/-- The last value under a key is read. -/
@[simp]
theorem Dict.setting_insert (k : String) :
    (d.insert k value).setting key read default =
      if k = key then (read value).getD default else d.setting key read default := by
  unfold setting
  rw [get?_insert]
  by_cases hkey : k = key
  · rw [if_pos hkey, if_pos hkey.symm]
    rfl
  · rw [if_neg hkey, if_neg (Ne.symm hkey)]

end

/-- A setting that may be missing is missing when the value does not fit. -/
@[simp]
theorem getD_map_some {α : Type} (a : Option α) : (a.map some).getD none = a := by
  cases a <;> rfl

/-! ### Inner nodes -/

/-- The thresholds that properties set. -/
def Parallel.interpret (d : Dict PropertyValue) : Parallel where
  success := d.setting "success_threshold" (fun v => (threshold? v).map some) fresh.success
  failure := d.setting "failure_threshold" threshold? fresh.failure

/-- The settings of a repeater that properties set. -/
def Repeat.interpret (d : Dict PropertyValue) : Repeat where
  limit := d.setting "count" (fun v => (v.asInteger?.bind toWord?).map some) ({} : Repeat).limit
  stopOnFailure := d.setting "stop_on_failure" PropertyValue.asFlag? ({} : Repeat).stopOnFailure
  resetChild := d.setting "reset_child" PropertyValue.asFlag? ({} : Repeat).resetChild

/-- The settings of a retry node that properties set. -/
def Retry.interpret (d : Dict PropertyValue) : Retry where
  budget := d.setting "max_retries" (fun v => v.asInteger?.bind toWord?) ({} : Retry).budget
  delay := d.setting "retry_delay" (fun v => v.asReal?.filter (0.0 ≤ ·)) ({} : Retry).delay

/-- The settings of a timeout node that properties set. -/
def Timeout.interpret (d : Dict PropertyValue) : Timeout where
  limit := d.setting "timeout" (fun v => v.asReal?.map (atLeast leastLimit)) ({} : Timeout).limit
  successOnTimeout :=
    d.setting "success_on_timeout" PropertyValue.asFlag? ({} : Timeout).successOnTimeout

/-- The settings of an inner node that properties set. -/
def InnerKind.interpret : InnerKind → Dict PropertyValue → Control.Settings
  | .sequence, _ => .sequence
  | .selector, _ => .selector
  | .parallel, d => .parallel (.interpret d)
  | .inverter, _ => .inverter
  | .repeater, d => .repeater (.interpret d)
  | .retry, d => .retry (.interpret d)
  | .timeout, d => .timeout (.interpret d)

section

variable (d : Dict PropertyValue) (key : String) (value : PropertyValue)

theorem Parallel.configure_interpret :
    (interpret d).configure key value = interpret (d.insert key value) := by
  unfold configure
  split
  · next hkey => simp [interpret, hkey, fresh]
  split
  · next hkey => simp [interpret, hkey, fresh]
  · next h₁ h₂ => simp [interpret, h₁, h₂]

theorem Repeat.configure_interpret :
    (interpret d).configure key value = interpret (d.insert key value) := by
  unfold configure
  split
  · next hkey => simp [interpret, hkey, -Option.map_bind]
  split
  · next hkey => simp [interpret, hkey]
  split
  · next hkey => simp [interpret, hkey]
  · next h₁ h₂ h₃ => simp [interpret, h₁, h₂, h₃]

theorem Retry.configure_interpret :
    (interpret d).configure key value = interpret (d.insert key value) := by
  unfold configure
  split
  · next hkey => simp [interpret, hkey, defaultBudget]
  split
  · next hkey => simp [interpret, hkey]
  · next h₁ h₂ => simp [interpret, h₁, h₂]

theorem Timeout.configure_interpret :
    (interpret d).configure key value = interpret (d.insert key value) := by
  unfold configure
  split
  · next hkey => simp [interpret, hkey, defaultLimit]
  split
  · next hkey => simp [interpret, hkey]
  · next h₁ h₂ => simp [interpret, h₁, h₂]

end

namespace Control

/-- The settings with a property. -/
def Settings.configure (key : String) (value : PropertyValue) (s : Settings) : Settings :=
  (s.start.configure key value).settings

/-- What a property does to the settings of a control does not depend on its progress. -/
theorem settings_configure (key : String) (value : PropertyValue) (c : Control) :
    (c.configure key value).settings = c.settings.configure key value := by
  cases c <;> rfl

end Control

theorem InnerKind.interpret_empty (k : InnerKind) :
    k.interpret .empty = (Control.fresh k).settings := by
  cases k <;> rfl

theorem InnerKind.configure_interpret (k : InnerKind) (d : Dict PropertyValue) (key : String)
    (value : PropertyValue) :
    (k.interpret d).configure key value = k.interpret (d.insert key value) := by
  cases k with
  | sequence | selector | inverter => rfl
  | parallel => exact congrArg Control.Settings.parallel (Parallel.configure_interpret d key value)
  | repeater => exact congrArg Control.Settings.repeater (Repeat.configure_interpret d key value)
  | retry => exact congrArg Control.Settings.retry (Retry.configure_interpret d key value)
  | timeout => exact congrArg Control.Settings.timeout (Timeout.configure_interpret d key value)

/-! ### Leaves -/

namespace Builtin

/-- The forms of leaves in the library. -/
inductive Form where
  | constant (status : Status)
  | wait
  | setValue
  | log
  | hasValue
  | valueEquals
deriving DecidableEq, Repr

/-- A new leaf. -/
def Form.fresh : Form → Builtin
  | .constant status => .constant status
  | .wait => .pause
  | .setValue => .write
  | .log => .report
  | .hasValue => .present
  | .valueEquals => .equal

/-- The settings of a leaf that properties set. -/
def Form.interpret : Form → Dict PropertyValue → Settings
  | .constant status, _ => .constant status
  | .wait, d =>
    .wait (d.setting "duration" (fun v => v.asReal?.filter (0.0 ≤ ·)) defaultDuration)
  | .setValue, d =>
    .setValue (d.setting "key" (fun v => v.asText?.map some) none)
      (d.setting "value" (fun v => some (some v)) none)
  | .log, d =>
    .log (d.setting "message" (fun v => some v.render) "")
      (d.setting "level" (fun v => v.asText?.bind Log.Level.ofWord?) .info)
  | .hasValue, d => .hasValue (d.setting "key" (fun v => v.asText?.map some) none)
  | .valueEquals, d =>
    .valueEquals (d.setting "key" (fun v => v.asText?.map some) none)
      (d.setting "value" (fun v => some (some v)) none)

/-- The settings with a property. -/
def Settings.configure (key : String) (value : PropertyValue) (s : Settings) : Settings :=
  (s.start.configure key value).settings

/-- What a property does to the settings of a leaf does not depend on its progress. -/
theorem settings_configure (key : String) (value : PropertyValue) (b : Builtin) :
    (b.configure key value).settings = b.settings.configure key value := by
  cases b with
  | wait duration startedAt =>
    by_cases hkey : key = "duration"
    · simp only [Settings.configure, settings, Settings.start, configure, if_pos hkey]
    · simp only [Settings.configure, settings, Settings.start, configure, if_neg hkey]
  | constant | setValue | log | hasValue | valueEquals => rfl

theorem Form.interpret_empty (f : Form) : f.interpret .empty = f.fresh.settings := by
  cases f <;> rfl

theorem Form.configure_interpret (f : Form) (d : Dict PropertyValue) (key : String)
    (value : PropertyValue) :
    (f.interpret d).configure key value = f.interpret (d.insert key value) := by
  cases f with
  | constant status => rfl
  | wait | hasValue =>
    simp only [interpret, Settings.configure, Settings.start, configure]
    split
    · next hkey => simp [settings, hkey]
    · next h => simp [settings, h]
  | setValue | log | valueEquals =>
    simp only [interpret, Settings.configure, Settings.start, configure]
    split
    · next hkey => simp [settings, hkey]
    split
    · next hkey => simp [settings, hkey]
    · next h₁ h₂ => simp [settings, h₁, h₂]

end Builtin

/-! ### Nodes -/

namespace Node

/-- What a new node is. -/
inductive Make where
  | leaf (kind : LeafKind) (form : Builtin.Form)
  | inner (kind : InnerKind)

/-- A new node, with the settings of its kind. -/
def Make.fresh (id : NodeId) : Make → Node Builtin
  | .leaf kind form => ofBehavior id kind form.fresh
  | .inner kind => ofControl id (.fresh kind)

/-- The settings that properties give such a node. -/
def Make.interpret : Make → Dict PropertyValue → Setup
  | .leaf kind form, d => .leaf kind (form.interpret d)
  | .inner kind, d => .inner (kind.interpret d)

/-- The settings with a property. -/
def Setup.configure (key : String) (value : PropertyValue) : Setup → Setup
  | .leaf kind s => .leaf kind (s.configure key value)
  | .inner s => .inner (s.configure key value)

theorem Make.interpret_empty (make : Make) (id : NodeId) :
    make.interpret .empty = (make.fresh id).setup := by
  cases make with
  | leaf kind form => exact congrArg (Setup.leaf kind) form.interpret_empty
  | inner kind => exact congrArg Setup.inner kind.interpret_empty

theorem Make.configure_interpret (make : Make) (d : Dict PropertyValue) (key : String)
    (value : PropertyValue) :
    (make.interpret d).configure key value = make.interpret (d.insert key value) := by
  cases make with
  | leaf kind form => exact congrArg (Setup.leaf kind) (form.configure_interpret d key value)
  | inner kind => exact congrArg Setup.inner (kind.configure_interpret d key value)

open Dict (Settling)

variable {η : Type}

/-! ### Properties of a node -/

/-- A node with a property. -/
def withProperty (key : String) (value : PropertyValue) (n : Node Builtin) : Node Builtin :=
  (n.setProperty key value ()).1

section

variable (key : String) (value : PropertyValue) (n : Node Builtin)

/-- The host has no part in a property of a leaf of the library. -/
theorem setProperty_eq (h : η) : n.setProperty key value h = (n.withProperty key value, h) := by
  cases n <;> rfl

theorem setup_withProperty : (n.withProperty key value).setup = n.setup.configure key value := by
  cases n with
  | leaf info kind b => exact congrArg (Setup.leaf kind) (b.settings_configure key value)
  | inner info control cs => exact congrArg Setup.inner (control.settings_configure key value)

theorem properties_withProperty :
    (n.withProperty key value).properties = n.properties.insert key value :=
  n.properties_setProperty key value ()

/-- A property changes no progress. -/
theorem progress_withProperty : (n.withProperty key value).progress = n.progress := by
  cases n with
  | leaf info kind b => exact congrArg Progress.leaf (b.startedAt_configure key value)
  | inner info control cs => exact congrArg Progress.inner (control.progress_configure key value)

end

/-- What a node carries, with a property on record. -/
def record (key : String) (value : PropertyValue) (info : NodeInfo) : NodeInfo :=
  { info with properties := info.properties.insert key value }

theorem settling_record : Settling record where
  again key v w info :=
    congrArg (fun d => { info with properties := d }) (Dict.settling_insert.again key v w _)
  swap hne v w info :=
    congrArg (fun d => { info with properties := d }) (Dict.settling_insert.swap hne v w _)

theorem withProperty_leaf (key : String) (value : PropertyValue) (info : NodeInfo)
    (kind : LeafKind) (b : Builtin) :
    (leaf info kind b).withProperty key value =
      leaf (record key value info) kind (b.configure key value) := rfl

theorem withProperty_inner (key : String) (value : PropertyValue) (info : NodeInfo)
    (control : Control) (cs : List (Node Builtin)) :
    (inner info control cs).withProperty key value =
      inner (record key value info) (control.configure key value) cs := rfl

/-- Of the properties of a node the last one under each key counts, and their order does not
    matter. -/
theorem settling_withProperty : Settling withProperty where
  again key v w n := by
    cases n with
    | leaf info kind b =>
      simp only [withProperty_leaf, settling_record.again, Builtin.settling_configure.again]
    | inner info control cs =>
      simp only [withProperty_inner, settling_record.again, Control.settling_configure.again]
  swap hne v w n := by
    cases n with
    | leaf info kind b =>
      simp only [withProperty_leaf, settling_record.swap hne, Builtin.settling_configure.swap hne]
    | inner info control cs =>
      simp only [withProperty_inner, settling_record.swap hne, Control.settling_configure.swap hne]

theorem setProperties_eq (ps : List (String × PropertyValue)) (n : Node Builtin) (h : η) :
    n.setProperties ps h = (Dict.writeAll withProperty ps n, h) := by
  induction ps generalizing n with
  | nil => rfl
  | cons p ps ih => rw [setProperties_cons, setProperty_eq, ih, Dict.writeAll_cons]

/-! ### Histories of a node -/

/-- What happens to a node. -/
inductive Operation (η : Type) where
  | setProperty (key : String) (value : PropertyValue)
  /-- A call, in a world as the host has made it. -/
  | call (call : Call) (w : World η)
  /-- The children are replaced, or something happens to them. -/
  | exchange (cs : List (Node Builtin))

/-- The property that an operation records. -/
def Operation.recorded : Operation η → Option (String × PropertyValue)
  | .setProperty key value => some (key, value)
  | .call .. | .exchange .. => none

/-- The node after an operation. -/
def operate (n : Node Builtin) : Operation η → Node Builtin
  | .setProperty key value => n.withProperty key value
  | .call call w => (machine.call call n w).2.1
  | .exchange cs =>
    match n with
    | .leaf info kind b => .leaf info kind b
    | .inner info control _ => .inner info control cs

/-- The node after operations, one after the other. -/
def operateAll (n : Node Builtin) (ops : List (Operation η)) : Node Builtin := ops.foldl operate n

theorem operateAll_append (n : Node Builtin) (ops : List (Operation η)) (op : Operation η) :
    n.operateAll (ops ++ [op]) = (n.operateAll ops).operate op := by
  rw [operateAll, List.foldl_append]
  rfl

theorem called_call (call : Call) (n : Node Builtin) (w : World η) :
    Called η n (machine.call call n w).2.1 := by
  cases call with
  | execute now => exact .execute now w (.refl n)
  | reset => exact .reset w.host (.refl n)
  | cancel => exact .cancel w.host (.refl n)

/-- A call changes neither what a node carries nor its settings. -/
theorem root_called {n m : Node Builtin} (h : Called η n m) : (m.info, m.setup) = (n.info, n.setup) :=
  root_of_view_eq (layout_called h)

theorem setup_operate (make : Make) {n : Node Builtin} (h : n.setup = make.interpret n.properties)
    (op : Operation η) : (n.operate op).setup = make.interpret (n.operate op).properties := by
  cases op with
  | setProperty key value =>
    rw [operate, setup_withProperty, properties_withProperty, h, make.configure_interpret]
  | call call w =>
    obtain ⟨hinfo, hsetup⟩ := Prod.mk.inj (root_called (called_call call n w))
    rw [operate, hsetup, h, properties, properties, hinfo]
  | exchange cs => cases n <;> exact h

theorem properties_operate (n : Node Builtin) (op : Operation η) :
    (n.operate op).properties =
      op.recorded.elim n.properties fun p => n.properties.insert p.1 p.2 := by
  cases op with
  | setProperty key value => exact n.properties_setProperty key value ()
  | call call w =>
    obtain ⟨hinfo, -⟩ := Prod.mk.inj (root_called (called_call call n w))
    exact congrArg NodeInfo.properties hinfo
  | exchange cs => cases n <;> rfl

/-- The settings of a node are what its properties say. -/
theorem setup_operateAll (make : Make) (id : NodeId) (ops : List (Operation η)) :
    ((make.fresh id).operateAll ops).setup =
      make.interpret ((make.fresh id).operateAll ops).properties := by
  induction ops using List.reverseRecOn with
  | nil =>
    have hfresh : (make.fresh id).properties = .empty := by cases make <;> rfl
    show (make.fresh id).setup = make.interpret (make.fresh id).properties
    rw [hfresh, make.interpret_empty id]
  | append_singleton ops op ih =>
    rw [operateAll_append]
    exact setup_operate make ih op

/-- The properties of a node are those that were recorded. -/
theorem properties_operateAll (make : Make) (id : NodeId) (ops : List (Operation η)) :
    ((make.fresh id).operateAll ops).properties = .ofList (ops.filterMap Operation.recorded) := by
  induction ops using List.reverseRecOn with
  | nil => cases make <;> rfl
  | append_singleton ops op ih =>
    rw [operateAll_append, properties_operate, ih, List.filterMap_append]
    cases hop : op.recorded with
    | none => rw [List.filterMap_cons_none hop, List.filterMap_nil, List.append_nil]; rfl
    | some p =>
      rw [List.filterMap_cons_some hop, List.filterMap_nil, Dict.ofList_append]
      rfl

/-- The last value that was recorded under a key. -/
def lastValue (ops : List (Operation η)) (key : String) : Option PropertyValue :=
  (ops.filterMap Operation.recorded).reverse.lookup key

theorem get?_operateAll (make : Make) (id : NodeId) (ops : List (Operation η)) (key : String) :
    ((make.fresh id).operateAll ops).properties.get? key = lastValue ops key := by
  rw [properties_operateAll, Dict.get?_ofList]
  rfl

/-- Histories with the same last values give a node the same settings. -/
theorem setup_of_lastValue (make : Make) (id : NodeId) {ops ops' : List (Operation η)}
    (hlast : ∀ key, lastValue ops key = lastValue ops' key) :
    ((make.fresh id).operateAll ops).setup = ((make.fresh id).operateAll ops').setup := by
  have hproperties : ((make.fresh id).operateAll ops).properties =
      ((make.fresh id).operateAll ops').properties := by
    apply Dict.ext
    intro key
    rw [get?_operateAll, get?_operateAll, hlast]
  rw [setup_operateAll, setup_operateAll, hproperties]

/-- Properties with the same last values leave the same node. -/
theorem setProperties_of_lookup {ps ps' : List (String × PropertyValue)}
    (hlast : ∀ key, ps.reverse.lookup key = ps'.reverse.lookup key) (n : Node Builtin) (h : η) :
    n.setProperties ps h = n.setProperties ps' h := by
  rw [setProperties_eq, setProperties_eq, settling_withProperty.writeAll_eq_of_lookup hlast]

/-- **Settings are a function of the properties.**  Whatever properties a node of the library was
    given, however it was called in between and whatever became of its children, its settings are the
    interpretation of its properties, of which each is the last one that was recorded under its key.
    A property touches neither progress nor children, two properties under different keys can be set
    in either order, and of the properties only the last one under each key matters. -/
theorem settings_follow_properties (make : Make) (id : NodeId) (ops : List (Operation η)) :
    ((make.fresh id).operateAll ops).setup =
        make.interpret ((make.fresh id).operateAll ops).properties ∧
      (∀ key, ((make.fresh id).operateAll ops).properties.get? key = lastValue ops key) ∧
      (∀ ops' : List (Operation η), (∀ key, lastValue ops key = lastValue ops' key) →
        ((make.fresh id).operateAll ops).setup = ((make.fresh id).operateAll ops').setup) ∧
      (∀ (n : Node Builtin) (h : η) key value, (n.setProperty key value h).1.progress = n.progress ∧
        (n.setProperty key value h).1.children = n.children) ∧
      (∀ (n : Node Builtin) (h : η) key key' value value', key ≠ key' →
        n.setProperties [(key, value), (key', value')] h =
          n.setProperties [(key', value'), (key, value)] h) ∧
      ∀ (n : Node Builtin) (h : η) ps ps',
        (∀ key, ps.reverse.lookup key = ps'.reverse.lookup key) →
        n.setProperties ps h = n.setProperties ps' h := by
  refine ⟨setup_operateAll make id ops, get?_operateAll make id ops, ?_, ?_, ?_, ?_⟩
  · exact fun ops' => setup_of_lastValue make id
  · intro n h key value
    rw [setProperty_eq]
    exact ⟨progress_withProperty key value n, n.children_setProperty key value ()⟩
  · intro n h key key' value value' hne
    rw [setProperties_eq, setProperties_eq]
    exact congrArg (·, h) (settling_withProperty.swap hne value value' n)
  · exact fun n h ps ps' hlast => setProperties_of_lookup hlast n h

/-- A repeater has the limit and the flag that its last properties write, in any letter case and with
    blanks around them, and no limit when the last one writes none.  A log leaf has the message and the
    level that it is given. -/
theorem settings_of_written :
    (((Make.inner .repeater).fresh 0).operateAll
        [.setProperty "count" (.text "many"), .setProperty "stop_on_failure" (.text "True"),
          .call .reset (World.start ()), .setProperty "count" (.text " 2 ")]).setup =
      .inner (.repeater { limit := some 2, stopOnFailure := true }) ∧
    (((Make.inner .repeater).fresh 0).operateAll
        [.setProperty "count" (.text "2"), .call .cancel (World.start ()),
          .setProperty "reset_child" (.text "false"), .setProperty "count" (.text "many")]).setup =
      .inner (.repeater { limit := none, resetChild := false }) ∧
    (((Make.leaf .action .log).fresh 0).operateAll
        [.setProperty "message" (.text "Ready"), .call (.execute ⟨0, 0.0⟩) (World.start ()),
          .setProperty "level" (.text "Warn")]).setup =
      .leaf .action (.log "Ready" .warn) ∧
    ((Make.inner .repeater).fresh 0).setProperties
        [("count", .text "many"), ("reset_child", .text "no")] () =
      ((Make.inner .repeater).fresh 0).setProperties
        [("reset_child", .text "no"), ("count", .text "many")] () := by
  refine ⟨?_, ?_, ?_, ?_⟩
  · rw [(settings_follow_properties (.inner .repeater) 0 _).1]
    rfl
  · rw [(settings_follow_properties (.inner .repeater) 0 _).1]
    rfl
  · rw [(settings_follow_properties (.leaf .action .log) 0 _).1]
    rfl
  · obtain ⟨-, -, -, -, hcommute, -⟩ := settings_follow_properties (η := Unit) (.inner .repeater) 0 []
    exact hcommute _ () "count" "reset_child" _ _ (by decide)

end Node

end BehaviorTree
