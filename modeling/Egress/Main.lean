import Egress.Scenario.Demonstration

set_option autoImplicit false

def main : IO Unit := Egress.Scenario.Demonstration.lines.forM IO.println
