import HubDevice.Concurrent.Progress
import HubDevice.Error

/-!
# What a step leaves

`Progress.Leaves` says what is true after one step of a resumable computation that can fail: one thing
when it has to go on, one when it has succeeded and one when it has failed.
-/

namespace HubDevice

/-- What is true after a step of a computation that can fail. -/
def Progress.Leaves {α β : Type} (more : α → Prop) (ok error : Prop) :
    Progress α (Except ClientError β) → Prop
  | .more a => more a
  | .done (.ok _) => ok
  | .done (.error _) => error

theorem Progress.Leaves.mono {α β : Type} {more more' : α → Prop} {ok ok' error error' : Prop}
    {p : Progress α (Except ClientError β)} (h : p.Leaves more ok error) (hm : ∀ a, more a → more' a)
    (ho : ok → ok') (he : error → error') : p.Leaves more' ok' error' := by
  cases p with
  | more a => exact hm a h
  | done r =>
    cases r with
    | error e => exact he h
    | ok v => exact ho h

/-- What is left to do, seen through a map. -/
def Progress.map {α α' β : Type} (f : α → α') : Progress α β → Progress α' β
  | .more a => .more (f a)
  | .done r => .done r

end HubDevice
