import Fieldbus.Proofs.Device.Poll

namespace Fieldbus

/-- What can be asked of a device; the platform may differ from call to call. -/
inductive DeviceRequest (α π : Type)
  | handle (query : Frame)
  | poll (platform : π)
  | read (key : Key)
  | write (key : Key) (value : UInt32)
  | updateTime (now : Timestamp)
  | trigger (endpoint : Endpoint)
  | setBattery (level : UInt8)
  | resetCounters
  | configure (config : Config)
  | adapt (app : α)

namespace Device

variable {α π : Type} [Application α] [Platform π]

/-- Does what is asked, and hands over the answer to a query. -/
def perform (d : Device α) : DeviceRequest α π → Outcome α (Option Frame)
  | .handle query => d.handle query
  | .poll p => ⟨none, (d.poll p).device, (d.poll p).acts⟩
  | .read key => ⟨none, (d.readAttribute key).device, (d.readAttribute key).acts⟩
  | .write key value =>
    ⟨none, (d.writeAttribute key value).device, (d.writeAttribute key value).acts⟩
  | .updateTime now => ⟨none, d.updateTime now, []⟩
  | .trigger endpoint => ⟨none, d.trigger endpoint, []⟩
  | .setBattery level => ⟨none, d.setBattery level, []⟩
  | .resetCounters => ⟨none, d.resetCounters, []⟩
  | .configure config => ⟨none, { d with config }, []⟩
  | .adapt app => ⟨none, { d with app }, []⟩

/-- Does what is asked, one after the other. -/
def run (d : Device α) : List (DeviceRequest α π) → Outcome α (List Frame)
  | [] => ⟨[], d, []⟩
  | r :: rest =>
    let done := d.perform r
    let more := done.device.run rest
    ⟨done.result.toList ++ more.result, more.device, done.acts ++ more.acts⟩

theorem run_cons (d : Device α) (r : DeviceRequest α π) (rest : List (DeviceRequest α π)) :
    d.run (r :: rest) =
      ⟨(d.perform r).result.toList ++ ((d.perform r).device.run rest).result,
        ((d.perform r).device.run rest).device,
        (d.perform r).acts ++ ((d.perform r).device.run rest).acts⟩ := rfl

theorem did_perform (d : Device α) (r : DeviceRequest α π) : (d.perform r).device.did = d.did := by
  cases r with
  | handle query => exact (works_handle d query).steady.did
  | poll p => exact did_poll
  | read key => exact (steady_readAttribute d key).did
  | write key value => exact (steady_writeAttribute d key value).did
  | updateTime _ | trigger _ | setBattery _ | resetCounters | configure _ | adapt _ => rfl

end Device

end Fieldbus
