namespace EntityQuery

/-!
# Page sizes

The size of a page when a call asks for none, and the greatest size a call can ask for.
-/

/-- Why settings cannot be used. -/
inductive SettingsFault where
  /-- The settings cannot be read at all. -/
  | unreadable
  | noDefaultSize
  | noGreatestSize
  | defaultTooLarge (size greatest : Nat)
deriving DecidableEq, Repr

/-- What is said of each fault; the sizes are named as they are written in the file. -/
def SettingsFault.message : SettingsFault → String
  | .unreadable => "settings cannot be read"
  | .noDefaultSize => "paging.default_page_size must be greater than zero"
  | .noGreatestSize => "paging.max_page_size must be greater than zero"
  | .defaultTooLarge size greatest =>
    s!"paging.default_page_size ({size}) exceeds paging.max_page_size ({greatest})"

/-- The size of a page nobody asked a size of, and the largest size that is given. -/
structure PagingSettings where
  defaultSize : Nat := 20
  greatestSize : Nat := 2000
deriving DecidableEq, Repr

/-- Both sizes are positive and the default is one that a call could ask for. -/
def PagingSettings.check (p : PagingSettings) : Except SettingsFault Unit :=
  if p.defaultSize = 0 then .error .noDefaultSize
  else if p.greatestSize = 0 then .error .noGreatestSize
  else if p.greatestSize < p.defaultSize then .error (.defaultTooLarge p.defaultSize p.greatestSize)
  else .ok ()

end EntityQuery
