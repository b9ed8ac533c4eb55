import Fieldbus.Proofs.Device.Counters

namespace Fieldbus

/-- The queries that a device takes on, in order. -/
def handledQueries (acts : List DeviceAct) : List Frame :=
  acts.filterMap fun
    | .handling query => some query
    | _ => none

@[simp] theorem handledQueries_append (a b : List DeviceAct) :
    handledQueries (a ++ b) = handledQueries a ++ handledQueries b := List.filterMap_append

namespace Device

variable {α π : Type} [Application α] (d : Device α)

section Dispatch

theorem handledQueries_readAttribute (key : Key) :
    handledQueries (d.readAttribute key).acts = [] := by
  have h := retrieving d key
  generalize d.readAttribute key = out at h ⊢
  cases h <;> rfl

theorem handledQueries_writeAttribute (key : Key) (value : UInt32) :
    handledQueries (d.writeAttribute key value).acts = [] := by
  have h := storing d key value
  generalize d.writeAttribute key value = out at h ⊢
  cases h <;> rfl

theorem handledQueries_runCommand (endpoint : Endpoint) (payload : List UInt8) :
    handledQueries (d.runCommand endpoint payload).acts = [] := by
  rw [runCommand_eq]
  cases d.capabilities.command <;> rfl

theorem handledQueries_buildTelemetry (endpoint : Endpoint) :
    handledQueries (d.buildTelemetry endpoint).acts = [] := by
  have hcalls : handledQueries (d.measuringCalls endpoint) = [] := by
    unfold measuringCalls
    cases d.capabilities.telemetry <;> rfl
  have h := measuring d endpoint
  generalize d.buildTelemetry endpoint = out at h ⊢
  cases h <;> exact hcalls

/-- Carrying out a query takes on no other. -/
theorem handledQueries_dispatch (query : Frame) :
    handledQueries (d.dispatch query).acts = [] := by
  have h := dispatching d query
  generalize d.dispatch query = out at h ⊢
  cases h with
  | commandFailed fault e acts _ ran =>
    have hran := handledQueries_runCommand d query.id.endpoint query.payload
    rwa [ran] at hran
  | command e acts _ ran =>
    have hran := handledQueries_runCommand d query.id.endpoint query.payload
    rw [ran] at hran
    rw [handledQueries_append, hran, handledQueries_buildTelemetry, List.append_nil]
  | telemetry => exact handledQueries_buildTelemetry d _
  | malformed => rfl
  | read key => exact handledQueries_readAttribute d key
  | writeFailed key value fault e acts _ _ _ wrote =>
    have hwrote := handledQueries_writeAttribute d key value
    rwa [wrote] at hwrote
  | write key value e acts _ _ _ wrote =>
    have hwrote := handledQueries_writeAttribute d key value
    rw [wrote] at hwrote
    rw [handledQueries_append, hwrote, handledQueries_readAttribute, List.append_nil]

end Dispatch

theorem handledQueries_handle (query : Frame) :
    handledQueries (d.handle query).acts = [query].filter (·.isFor d.did) := by
  have hdone := handledQueries_dispatch (d.countReceived query.id.frameType) query
  have hmine (concerned : query.id.isQuery = true ∧ d.did.concerns query.did = true) :
      [query].filter (·.isFor d.did) = [query] :=
    List.filter_cons_of_pos (Frame.isFor_iff.mpr concerned)
  have h := handling d query
  generalize d.handle query = out at h ⊢
  cases h with
  | ignored other =>
    have hother : [query].filter (·.isFor d.did) = [] :=
      List.filter_cons_of_neg (mt Frame.isFor_iff.mp other)
    rw [hother]
    rfl
  | answered answer e acts concerned done =>
    rw [done] at hdone
    rw [hmine concerned]
    exact congrArg (query :: ·) hdone
  | reported fault e acts concerned failed =>
    rw [failed] at hdone
    rw [hmine concerned, handledQueries_append]
    exact congrArg (query :: · ++ []) hdone
  | silenced fault e acts concerned failed =>
    rw [failed] at hdone
    rw [hmine concerned, handledQueries_append]
    exact congrArg (query :: · ++ []) hdone

section Poll

variable {d} {p : π} {out : Polled α π}

theorem Reporting.handled (h : d.Reporting p out) : handledQueries out.acts = [] := by
  have hbuilt := handledQueries_buildTelemetry d.trying
  cases h with
  | idle => rfl
  | failed endpoint fault e acts _ built =>
    have hacts := hbuilt endpoint
    rw [built] at hacts
    rw [handledQueries_append, hacts]
    rfl
  | sent endpoint frame e acts _ built =>
    have hacts := hbuilt endpoint
    rw [built] at hacts
    rw [handledQueries_append, hacts]
    rfl

theorem Replying.handled {query : Frame} (h : d.Replying p query out) :
    handledQueries out.acts = [query].filter (·.isFor d.did) := by
  have hhandle := handledQueries_handle d query
  cases h with
  | silent => exact hhandle
  | said answer =>
    rw [handledQueries_append, hhandle]
    exact List.append_nil _

variable [Platform π]

theorem Taking.handled (h : d.Taking p out) :
    handledQueries out.acts = (incoming? p).toList.filter (·.isFor d.did) := by
  have hreply (q : π) (query : Frame) :=
    (replying (d.updateTime (Platform.now p)) q query).handled
  cases h with
  | idle silent => rw [incoming?_of_silent silent]; rfl
  | unsent query q received =>
    rw [incoming?_of_received received]
    exact hreply q query
  | served query q received replied synced reply _ sync =>
    have hfirst := hreply q query
    have hsync : handledQueries synced.acts = [] := by cases sync <;> rfl
    rw [reply] at hfirst
    rw [incoming?_of_received received, handledQueries_append, hfirst, hsync]
    exact List.append_nil _

/-- A poll takes on the frame that it receives, if that is a query for the device. -/
theorem handledQueries_poll (d : Device α) (p : π) :
    handledQueries (d.poll p).acts = (incoming? p).toList.filter (·.isFor d.did) := by
  have htake := (taking d p).handled
  have hreport := (reporting (d.take p).device (d.take p).platform).handled
  rw [poll_eq]
  split
  next => exact htake
  next =>
    rw [handledQueries_append, htake, hreport]
    exact List.append_nil _

end Poll

end Device

end Fieldbus
