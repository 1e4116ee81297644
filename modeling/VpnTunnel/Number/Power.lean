/-!
# Powers

Powers of numbers are those of the core library in every module, also where a module has another
instance of them in scope.
-/

attribute [instance (high + 1), default_instance (high + 1)] instPowNat
