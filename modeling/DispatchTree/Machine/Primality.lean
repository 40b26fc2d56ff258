import DispatchTree.Machine

/-!
# The bundled primality tester

A machine that decides whether a binary number is prime. The first track holds the number as the operator typed it, most significant
digit first; the second track is room for the trial divisor and the remainder.
-/

namespace DispatchTree.Primality

/-- The rules of the tester: the state, the pair it reads and its action. -/
def rules : List (String × SymbolPair × Action) :=
  [("clr0", ⟨.blank, .blank⟩, ⟨"notprime", ⟨.blank, .stay⟩, ⟨.blank, .stay⟩⟩),
    ("clr0", ⟨.zero, .blank⟩, ⟨"clr0", ⟨.blank, .right⟩, ⟨.blank, .stay⟩⟩),
    ("clr0", ⟨.one, .blank⟩, ⟨"chk1", ⟨.one, .right⟩, ⟨.one, .left⟩⟩),
    ("chk1", ⟨.blank, .blank⟩, ⟨"notprime", ⟨.blank, .stay⟩, ⟨.blank, .stay⟩⟩),
    ("chk1", ⟨.zero, .blank⟩, ⟨"chk2", ⟨.zero, .right⟩, ⟨.zero, .left⟩⟩),
    ("chk1", ⟨.one, .blank⟩, ⟨"chk2", ⟨.one, .right⟩, ⟨.one, .left⟩⟩),
    ("chk2", ⟨.blank, .blank⟩, ⟨"prime", ⟨.blank, .right⟩, ⟨.blank, .stay⟩⟩),
    ("chk2", ⟨.zero, .blank⟩, ⟨"movinit0", ⟨.zero, .right⟩, ⟨.zero, .left⟩⟩),
    ("chk2", ⟨.one, .blank⟩, ⟨"movinit1", ⟨.one, .right⟩, ⟨.one, .left⟩⟩),
    ("movinit0", ⟨.blank, .blank⟩, ⟨"notprime", ⟨.blank, .right⟩, ⟨.blank, .stay⟩⟩),
    ("movinit0", ⟨.zero, .blank⟩, ⟨"movinit0", ⟨.zero, .right⟩, ⟨.zero, .left⟩⟩),
    ("movinit0", ⟨.one, .blank⟩, ⟨"movinit1", ⟨.one, .right⟩, ⟨.one, .left⟩⟩),
    ("movinit1", ⟨.blank, .blank⟩, ⟨"initquot", ⟨.blank, .right⟩, ⟨.blank, .stay⟩⟩),
    ("movinit1", ⟨.zero, .blank⟩, ⟨"movinit0", ⟨.zero, .right⟩, ⟨.zero, .left⟩⟩),
    ("movinit1", ⟨.one, .blank⟩, ⟨"movinit1", ⟨.one, .right⟩, ⟨.one, .left⟩⟩),
    ("initquot", ⟨.blank, .blank⟩, ⟨"inc0", ⟨.one, .stay⟩, ⟨.blank, .right⟩⟩),
    ("inc0", ⟨.blank, .blank⟩, ⟨"prime", ⟨.one, .stay⟩, ⟨.blank, .stay⟩⟩),
    ("inc0", ⟨.blank, .zero⟩, ⟨"align", ⟨.one, .right⟩, ⟨.zero, .right⟩⟩),
    ("inc0", ⟨.blank, .one⟩, ⟨"align", ⟨.one, .right⟩, ⟨.one, .right⟩⟩),
    ("inc0", ⟨.zero, .blank⟩, ⟨"prime", ⟨.zero, .stay⟩, ⟨.blank, .stay⟩⟩),
    ("inc0", ⟨.zero, .zero⟩, ⟨"al1", ⟨.one, .right⟩, ⟨.zero, .right⟩⟩),
    ("inc0", ⟨.zero, .one⟩, ⟨"al1", ⟨.one, .right⟩, ⟨.one, .right⟩⟩),
    ("inc0", ⟨.one, .blank⟩, ⟨"prime", ⟨.one, .stay⟩, ⟨.blank, .stay⟩⟩),
    ("inc0", ⟨.one, .zero⟩, ⟨"inc1", ⟨.zero, .right⟩, ⟨.zero, .right⟩⟩),
    ("inc0", ⟨.one, .one⟩, ⟨"inc1", ⟨.zero, .right⟩, ⟨.one, .right⟩⟩),
    ("inc1", ⟨.blank, .blank⟩, ⟨"inc0", ⟨.blank, .stay⟩, ⟨.blank, .stay⟩⟩),
    ("inc1", ⟨.blank, .zero⟩, ⟨"inc0", ⟨.blank, .stay⟩, ⟨.zero, .right⟩⟩),
    ("inc1", ⟨.blank, .one⟩, ⟨"inc0", ⟨.blank, .stay⟩, ⟨.one, .right⟩⟩),
    ("inc1", ⟨.zero, .blank⟩, ⟨"prime", ⟨.zero, .stay⟩, ⟨.blank, .stay⟩⟩),
    ("inc1", ⟨.zero, .zero⟩, ⟨"inc0", ⟨.zero, .stay⟩, ⟨.zero, .right⟩⟩),
    ("inc1", ⟨.zero, .one⟩, ⟨"inc0", ⟨.zero, .stay⟩, ⟨.one, .right⟩⟩),
    ("inc1", ⟨.one, .blank⟩, ⟨"prime", ⟨.one, .stay⟩, ⟨.blank, .stay⟩⟩),
    ("inc1", ⟨.one, .zero⟩, ⟨"inc0", ⟨.one, .stay⟩, ⟨.zero, .right⟩⟩),
    ("inc1", ⟨.one, .one⟩, ⟨"inc0", ⟨.one, .stay⟩, ⟨.one, .right⟩⟩),
    ("al0", ⟨.blank, .blank⟩, ⟨"dleq", ⟨.blank, .left⟩, ⟨.blank, .left⟩⟩),
    ("al0", ⟨.blank, .zero⟩, ⟨"align", ⟨.blank, .stay⟩, ⟨.zero, .right⟩⟩),
    ("al0", ⟨.blank, .one⟩, ⟨"align", ⟨.blank, .stay⟩, ⟨.one, .right⟩⟩),
    ("al0", ⟨.zero, .blank⟩, ⟨"prime", ⟨.zero, .stay⟩, ⟨.blank, .stay⟩⟩),
    ("al0", ⟨.zero, .zero⟩, ⟨"al1", ⟨.zero, .right⟩, ⟨.zero, .right⟩⟩),
    ("al0", ⟨.zero, .one⟩, ⟨"al1", ⟨.zero, .right⟩, ⟨.one, .right⟩⟩),
    ("al0", ⟨.one, .blank⟩, ⟨"prime", ⟨.one, .stay⟩, ⟨.blank, .stay⟩⟩),
    ("al0", ⟨.one, .zero⟩, ⟨"al1", ⟨.one, .right⟩, ⟨.zero, .right⟩⟩),
    ("al0", ⟨.one, .one⟩, ⟨"al1", ⟨.one, .right⟩, ⟨.one, .right⟩⟩),
    ("al1", ⟨.blank, .blank⟩, ⟨"dleq", ⟨.blank, .left⟩, ⟨.blank, .left⟩⟩),
    ("al1", ⟨.blank, .zero⟩, ⟨"align", ⟨.blank, .stay⟩, ⟨.zero, .right⟩⟩),
    ("al1", ⟨.blank, .one⟩, ⟨"align", ⟨.blank, .stay⟩, ⟨.one, .right⟩⟩),
    ("al1", ⟨.zero, .blank⟩, ⟨"prime", ⟨.zero, .stay⟩, ⟨.blank, .stay⟩⟩),
    ("al1", ⟨.zero, .zero⟩, ⟨"al0", ⟨.zero, .stay⟩, ⟨.zero, .right⟩⟩),
    ("al1", ⟨.zero, .one⟩, ⟨"al0", ⟨.zero, .stay⟩, ⟨.one, .right⟩⟩),
    ("al1", ⟨.one, .blank⟩, ⟨"prime", ⟨.one, .stay⟩, ⟨.blank, .stay⟩⟩),
    ("al1", ⟨.one, .zero⟩, ⟨"al0", ⟨.one, .stay⟩, ⟨.zero, .right⟩⟩),
    ("al1", ⟨.one, .one⟩, ⟨"al0", ⟨.one, .stay⟩, ⟨.one, .right⟩⟩),
    ("align", ⟨.blank, .blank⟩, ⟨"dleq", ⟨.blank, .left⟩, ⟨.blank, .left⟩⟩),
    ("align", ⟨.blank, .zero⟩, ⟨"align", ⟨.blank, .stay⟩, ⟨.zero, .right⟩⟩),
    ("align", ⟨.blank, .one⟩, ⟨"align", ⟨.blank, .stay⟩, ⟨.one, .right⟩⟩),
    ("align", ⟨.zero, .zero⟩, ⟨"align", ⟨.zero, .right⟩, ⟨.zero, .right⟩⟩),
    ("align", ⟨.zero, .one⟩, ⟨"align", ⟨.zero, .right⟩, ⟨.one, .right⟩⟩),
    ("align", ⟨.one, .zero⟩, ⟨"align", ⟨.one, .right⟩, ⟨.zero, .right⟩⟩),
    ("align", ⟨.one, .one⟩, ⟨"align", ⟨.one, .right⟩, ⟨.one, .right⟩⟩),
    ("dleq", ⟨.blank, .blank⟩, ⟨"notprime", ⟨.blank, .stay⟩, ⟨.blank, .stay⟩⟩),
    ("dleq", ⟨.blank, .zero⟩, ⟨"sub0", ⟨.blank, .right⟩, ⟨.zero, .right⟩⟩),
    ("dleq", ⟨.blank, .one⟩, ⟨"sub0", ⟨.blank, .right⟩, ⟨.one, .right⟩⟩),
    ("dleq", ⟨.zero, .zero⟩, ⟨"dleq", ⟨.zero, .left⟩, ⟨.zero, .left⟩⟩),
    ("dleq", ⟨.zero, .one⟩, ⟨"dless", ⟨.zero, .left⟩, ⟨.one, .left⟩⟩),
    ("dleq", ⟨.one, .zero⟩, ⟨"dskip0", ⟨.one, .left⟩, ⟨.zero, .left⟩⟩),
    ("dleq", ⟨.one, .one⟩, ⟨"dleq", ⟨.one, .left⟩, ⟨.one, .left⟩⟩),
    ("dless", ⟨.blank, .blank⟩, ⟨"copy0", ⟨.blank, .left⟩, ⟨.blank, .right⟩⟩),
    ("dless", ⟨.blank, .zero⟩, ⟨"sub0", ⟨.blank, .right⟩, ⟨.zero, .right⟩⟩),
    ("dless", ⟨.blank, .one⟩, ⟨"sub0", ⟨.blank, .right⟩, ⟨.one, .right⟩⟩),
    ("dless", ⟨.zero, .zero⟩, ⟨"dless", ⟨.zero, .left⟩, ⟨.zero, .left⟩⟩),
    ("dless", ⟨.zero, .one⟩, ⟨"dless", ⟨.zero, .left⟩, ⟨.one, .left⟩⟩),
    ("dless", ⟨.one, .zero⟩, ⟨"dless", ⟨.one, .left⟩, ⟨.zero, .left⟩⟩),
    ("dless", ⟨.one, .one⟩, ⟨"dless", ⟨.one, .left⟩, ⟨.one, .left⟩⟩),
    ("dskip0", ⟨.blank, .blank⟩, ⟨"copy0", ⟨.blank, .left⟩, ⟨.blank, .right⟩⟩),
    ("dskip0", ⟨.blank, .zero⟩, ⟨"dskip1", ⟨.blank, .right⟩, ⟨.zero, .right⟩⟩),
    ("dskip0", ⟨.blank, .one⟩, ⟨"dskip1", ⟨.blank, .right⟩, ⟨.one, .right⟩⟩),
    ("dskip0", ⟨.zero, .zero⟩, ⟨"dskip0", ⟨.zero, .left⟩, ⟨.zero, .left⟩⟩),
    ("dskip0", ⟨.zero, .one⟩, ⟨"dskip0", ⟨.zero, .left⟩, ⟨.one, .left⟩⟩),
    ("dskip0", ⟨.one, .zero⟩, ⟨"dskip0", ⟨.one, .left⟩, ⟨.zero, .left⟩⟩),
    ("dskip0", ⟨.one, .one⟩, ⟨"dskip0", ⟨.one, .left⟩, ⟨.one, .left⟩⟩),
    ("dskip1", ⟨.blank, .blank⟩, ⟨"shift", ⟨.blank, .left⟩, ⟨.blank, .left⟩⟩),
    ("dskip1", ⟨.blank, .zero⟩, ⟨"shift", ⟨.blank, .left⟩, ⟨.zero, .left⟩⟩),
    ("dskip1", ⟨.blank, .one⟩, ⟨"shift", ⟨.blank, .left⟩, ⟨.one, .left⟩⟩),
    ("dskip1", ⟨.zero, .zero⟩, ⟨"dskip1", ⟨.zero, .right⟩, ⟨.zero, .right⟩⟩),
    ("dskip1", ⟨.zero, .one⟩, ⟨"dskip1", ⟨.zero, .right⟩, ⟨.one, .right⟩⟩),
    ("dskip1", ⟨.one, .zero⟩, ⟨"dskip1", ⟨.one, .right⟩, ⟨.zero, .right⟩⟩),
    ("dskip1", ⟨.one, .one⟩, ⟨"dskip1", ⟨.one, .right⟩, ⟨.one, .right⟩⟩),
    ("sub0", ⟨.blank, .blank⟩, ⟨"shift", ⟨.blank, .left⟩, ⟨.blank, .left⟩⟩),
    ("sub0", ⟨.blank, .zero⟩, ⟨"shift", ⟨.blank, .left⟩, ⟨.zero, .left⟩⟩),
    ("sub0", ⟨.blank, .one⟩, ⟨"shift", ⟨.blank, .left⟩, ⟨.one, .left⟩⟩),
    ("sub0", ⟨.zero, .zero⟩, ⟨"sub0", ⟨.zero, .right⟩, ⟨.zero, .right⟩⟩),
    ("sub0", ⟨.zero, .one⟩, ⟨"sub0", ⟨.zero, .right⟩, ⟨.one, .right⟩⟩),
    ("sub0", ⟨.one, .zero⟩, ⟨"sub1", ⟨.one, .right⟩, ⟨.one, .right⟩⟩),
    ("sub0", ⟨.one, .one⟩, ⟨"sub0", ⟨.one, .right⟩, ⟨.zero, .right⟩⟩),
    ("sub1", ⟨.blank, .one⟩, ⟨"shift", ⟨.blank, .left⟩, ⟨.zero, .left⟩⟩),
    ("sub1", ⟨.zero, .zero⟩, ⟨"sub1", ⟨.zero, .right⟩, ⟨.one, .right⟩⟩),
    ("sub1", ⟨.zero, .one⟩, ⟨"sub0", ⟨.zero, .right⟩, ⟨.zero, .right⟩⟩),
    ("sub1", ⟨.one, .zero⟩, ⟨"sub1", ⟨.one, .right⟩, ⟨.zero, .right⟩⟩),
    ("sub1", ⟨.one, .one⟩, ⟨"sub1", ⟨.one, .right⟩, ⟨.one, .right⟩⟩),
    ("shift", ⟨.zero, .zero⟩, ⟨"dleq", ⟨.zero, .stay⟩, ⟨.zero, .left⟩⟩),
    ("shift", ⟨.zero, .one⟩, ⟨"dless", ⟨.zero, .stay⟩, ⟨.one, .left⟩⟩),
    ("shift", ⟨.one, .zero⟩, ⟨"dleq", ⟨.one, .stay⟩, ⟨.zero, .left⟩⟩),
    ("shift", ⟨.one, .one⟩, ⟨"dless", ⟨.one, .stay⟩, ⟨.one, .left⟩⟩),
    ("copy0", ⟨.blank, .blank⟩, ⟨"copy1", ⟨.blank, .right⟩, ⟨.blank, .left⟩⟩),
    ("copy0", ⟨.zero, .zero⟩, ⟨"copy0", ⟨.zero, .left⟩, ⟨.blank, .right⟩⟩),
    ("copy0", ⟨.zero, .one⟩, ⟨"copy0", ⟨.zero, .left⟩, ⟨.blank, .right⟩⟩),
    ("copy0", ⟨.one, .zero⟩, ⟨"copy0", ⟨.one, .left⟩, ⟨.blank, .right⟩⟩),
    ("copy0", ⟨.one, .one⟩, ⟨"copy0", ⟨.one, .left⟩, ⟨.blank, .right⟩⟩),
    ("copy1", ⟨.blank, .blank⟩, ⟨"inc0", ⟨.blank, .right⟩, ⟨.blank, .right⟩⟩),
    ("copy1", ⟨.zero, .blank⟩, ⟨"copy1", ⟨.zero, .right⟩, ⟨.zero, .left⟩⟩),
    ("copy1", ⟨.one, .blank⟩, ⟨"copy1", ⟨.one, .right⟩, ⟨.one, .left⟩⟩)]

/-- The tester before its rules are given. -/
def frame : Machine :=
  ((Machine.new "clr0").withPrompt "Please type your number in binary (<29 bits) and press enter"
    |>.halt "notprime" "Number is not prime"
    |>.halt "prime" "Number is prime")

/-- The tester. -/
def machine : Machine := rules.foldl (fun m (state, read, action) => m.rule state read action) frame

end DispatchTree.Primality
