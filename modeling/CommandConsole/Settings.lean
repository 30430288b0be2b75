/-!
# Settings

What the owner of a console chooses, before it is made and while it runs.

## Main definitions

- `Settings` — the choices, with the usual ones as defaults
- `Settings.summary` — all of them in one line, for log messages
-/

namespace CommandConsole

/-- The choices of the owner of a console. -/
structure Settings where
  /-- Whether the console starts enabled. -/
  enabled : Bool := true
  /-- Whether it may be enabled in a release build. -/
  allowedInRelease : Bool := false
  /-- Whether opening and closing stop and restart the clock of the host. -/
  pauseEnabled : Bool := false
  fontSize : Nat := 14
  historyCapacity : Nat := 100
  /-- How many rows of output are kept; `0` for no limit. -/
  maxOutputRows : Nat := 1000
  deriving DecidableEq, Repr

namespace Settings

instance : Inhabited Settings := ⟨{}⟩

/-- All settings in one line, for log messages. -/
def summary (settings : Settings) : String :=
  "ConsoleConfig \x7b enabled: " ++ toString settings.enabled ++
    ", enabled_on_release_build: " ++ toString settings.allowedInRelease ++
    ", pause_enabled: " ++ toString settings.pauseEnabled ++
    ", font_size: " ++ toString settings.fontSize ++
    ", history_capacity: " ++ toString settings.historyCapacity ++
    ", max_output_lines: " ++ toString settings.maxOutputRows ++ " \x7d"

end Settings

end CommandConsole
