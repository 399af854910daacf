import AltKeeper.Text

-- The variables of the environment, under the new name of the program or the old one.
namespace AltKeeper.Env

-- A variable that is empty counts as none.
def pick (new old : Option Str) : Option Str :=
  (new.filter fun v => !v.isEmpty).or (old.filter fun v => !v.isEmpty)

-- `vars` gives those whose value is a text.
def var (vars : Str → Option Str) (name : String) : Option Str :=
  pick (vars ("ALTKEEPER_".toList ++ name.toList)) (vars ("ALTREFRESH_".toList ++ name.toList))

end AltKeeper.Env
